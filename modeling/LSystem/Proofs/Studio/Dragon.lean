import LSystem.Proofs.Studio.Rendering
import Mathlib.Algebra.Group.Nat.Defs

/-! How many segments the dragon has. In one step each `X` and each `Y` makes way for one of either and one
`F`, so that the bends of the word double and its `F` grow by as many as there were bends. The dragon of
settings whose draw symbol is `F` thus has `2 ^ n` segments in generation `n`. With another draw symbol
nothing that the rules add is ever drawn, and the dragon keeps the one segment that it starts with. -/

namespace LSystem

variable {α : Type}

theorem Settings.check_eq_ok {settings : Settings α} :
    settings.check = .ok () ↔ Symbol.isControl settings.drawSymbol = false ∧
      Symbol.isControl settings.moveSymbol = false ∧ settings.drawSymbol ≠ settings.moveSymbol := by
  unfold Settings.check
  by_cases hdraw : Symbol.isControl settings.drawSymbol = true <;>
    by_cases hmove : Symbol.isControl settings.moveSymbol = true <;>
      by_cases hclash : settings.drawSymbol = settings.moveSymbol <;> simp [hdraw, hmove, hclash]

namespace Sketch

variable (settings : Settings α) {symbol : Char}

/-! ### The rules -/

theorem image_dragonRules_x : (dragonRules settings).image 'X' = ['X', '+', 'Y', 'F', '+'] := by
  rw [Rulebook.image, dragonRules, Rulebook.get?_collect]
  rfl

theorem image_dragonRules_y : (dragonRules settings).image 'Y' = ['-', 'F', 'X', '-', 'Y'] := by
  rw [Rulebook.image, dragonRules, Rulebook.get?_collect]
  rfl

theorem dragonRules_cases {rule : Rule} (h : (dragonRules settings).get? symbol = some rule) :
    (symbol = settings.drawSymbol ∧ rule = (Rule.rewriting [symbol]).drawing.fixed) ∨
      (symbol = settings.moveSymbol ∧ rule = .idle symbol) ∨
      (symbol = 'X' ∧ rule = .rewriting ['X', '+', 'Y', 'F', '+']) ∨
      (symbol = 'Y' ∧ rule = .rewriting ['-', 'F', 'X', '-', 'Y']) := by
  have hmem := Rulebook.mem_of_get?_collect h
  simp only [List.mem_cons, Prod.mk.injEq, List.not_mem_nil, or_false] at hmem
  rcases hmem with ⟨rfl, rfl⟩ | ⟨rfl, rfl⟩ | ⟨rfl, rfl⟩ | ⟨rfl, rfl⟩ <;> simp

/-- Every other symbol is rewritten to itself. -/
theorem image_dragonRules (hx : symbol ≠ 'X') (hy : symbol ≠ 'Y') :
    (dragonRules settings).image symbol = [symbol] := by
  cases hrule : (dragonRules settings).get? symbol with
  | none => exact Rulebook.image_of_none hrule
  | some rule =>
      rw [Rulebook.image_of_some hrule]
      rcases dragonRules_cases settings hrule with ⟨-, rfl⟩ | ⟨-, rfl⟩ | ⟨rfl, -⟩ | ⟨rfl, -⟩
      · rfl
      · rfl
      · exact absurd rfl hx
      · exact absurd rfl hy

/-- The only rule that draws is that of the draw symbol. -/
theorem draws_dragonRules (hne : symbol ≠ settings.drawSymbol) :
    (dragonRules settings).draws symbol = false := by
  cases hrule : (dragonRules settings).get? symbol with
  | none => exact Rulebook.draws_of_none hrule
  | some rule =>
      rw [Rulebook.draws_of_some hrule]
      rcases dragonRules_cases settings hrule with ⟨rfl, -⟩ | ⟨-, rfl⟩ | ⟨-, rfl⟩ | ⟨-, rfl⟩
      · exact absurd rfl hne
      · rfl
      · rfl
      · rfl

theorem blanksIdle_dragonRules : (dragonRules settings).BlanksIdle := by
  intro symbol rule hrule hblank hmandatory
  rcases dragonRules_cases settings hrule with ⟨-, rfl⟩ | ⟨-, rfl⟩ | ⟨rfl, -⟩ | ⟨rfl, -⟩
  · cases hmandatory
  · exact ⟨rfl, rfl⟩
  · exact absurd hblank (by decide +kernel)
  · exact absurd hblank (by decide +kernel)

/-! ### The words -/

/-- The symbols at which a word bends further in the next step. -/
def bends (word : Word) : Nat := word.count 'X' + word.count 'Y'

theorem bends_append (front back : Word) : bends (front ++ back) = bends front + bends back := by
  rw [bends, bends, bends, List.count_append, List.count_append]
  omega

theorem bends_image (symbol : Char) : bends ((dragonRules settings).image symbol) = 2 * bends [symbol] := by
  by_cases hx : symbol = 'X'
  · rw [hx, image_dragonRules_x]
    rfl
  by_cases hy : symbol = 'Y'
  · rw [hy, image_dragonRules_y]
    rfl
  · rw [image_dragonRules settings hx hy]
    simp [bends, hx, hy]

theorem bends_step (word : Word) : bends ((dragonRules settings).step word) = 2 * bends word := by
  apply Rulebook.measure_step (g := fun word => 2 * bends word) bends_append
  · intro front back
    rw [bends_append, Nat.mul_add]
  · exact bends_image settings

theorem bends_generation (n : Nat) (word : Word) :
    bends ((dragonRules settings).generation n word) = 2 ^ n * bends word := by
  induction n generalizing word with
  | zero => rw [Rulebook.generation_zero, Nat.pow_zero, Nat.one_mul]
  | succ n ih => rw [Rulebook.generation_succ, ih, bends_step, Nat.pow_succ, Nat.mul_assoc]

/-- Of the symbols that are no bends and no turns only `F` is added, one for each bend. -/
theorem count_image (hsymbol : symbol ≠ 'X' ∧ symbol ≠ 'Y' ∧ symbol ≠ '+' ∧ symbol ≠ '-') (other : Char) :
    ((dragonRules settings).image other).count symbol =
      [other].count symbol + if symbol = 'F' then bends [other] else 0 := by
  obtain ⟨hx, hy, hleft, hright⟩ := hsymbol
  by_cases hotherx : other = 'X'
  · rw [hotherx, image_dragonRules_x]
    simp [List.count_cons, bends, hx.symm, hy.symm, hleft.symm, eq_comm (b := symbol)]
  by_cases hothery : other = 'Y'
  · rw [hothery, image_dragonRules_y]
    simp [List.count_cons, bends, hx.symm, hy.symm, hright.symm, eq_comm (b := symbol)]
  · rw [image_dragonRules settings hotherx hothery]
    simp [bends, hotherx, hothery]

theorem count_step (hsymbol : symbol ≠ 'X' ∧ symbol ≠ 'Y' ∧ symbol ≠ '+' ∧ symbol ≠ '-') (word : Word) :
    ((dragonRules settings).step word).count symbol =
      word.count symbol + if symbol = 'F' then bends word else 0 := by
  apply Rulebook.measure_step (f := List.count symbol)
    (g := fun word => word.count symbol + if symbol = 'F' then bends word else 0)
  · intro front back
    exact List.count_append
  · intro front back
    rw [List.count_append, bends_append]
    split_ifs <;> omega
  · exact count_image settings hsymbol

/-- Strokes are added as bends are. -/
theorem count_stroke_generation (n : Nat) (word : Word) :
    ((dragonRules settings).generation n word).count 'F' + bends word =
      word.count 'F' + bends ((dragonRules settings).generation n word) := by
  induction n generalizing word with
  | zero => rfl
  | succ n ih =>
      have hword := ih ((dragonRules settings).step word)
      rw [bends_step, count_step settings (by decide), if_pos rfl, ← Rulebook.generation_succ] at hword
      omega

theorem count_generation (hsymbol : symbol ≠ 'X' ∧ symbol ≠ 'Y' ∧ symbol ≠ '+' ∧ symbol ≠ '-')
    (hstroke : symbol ≠ 'F') (n : Nat) (word : Word) :
    ((dragonRules settings).generation n word).count symbol = word.count symbol := by
  induction n generalizing word with
  | zero => rfl
  | succ n ih => rw [Rulebook.generation_succ, ih, count_step settings hsymbol, if_neg hstroke, Nat.add_zero]

/-- The symbols that occur in a dragon. -/
def alphabet : List Char := [settings.drawSymbol, 'X', 'Y', 'F', '+', '-']

theorem mem_alphabet (n : Nat) :
    ∀ symbol ∈ (dragonRules settings).generation n (dragonSeed settings).start, symbol ∈ alphabet settings := by
  have hxImage : ∀ other ∈ ['X', '+', 'Y', 'F', '+'], other ∈ alphabet settings := by simp [alphabet]
  have hyImage : ∀ other ∈ ['-', 'F', 'X', '-', 'Y'], other ∈ alphabet settings := by simp [alphabet]
  apply Rulebook.forall_mem_generation
  · intro symbol hsymbol other hother
    by_cases hx : symbol = 'X'
    · rw [hx, image_dragonRules_x] at hother
      exact hxImage other hother
    by_cases hy : symbol = 'Y'
    · rw [hy, image_dragonRules_y] at hother
      exact hyImage other hother
    · rw [image_dragonRules settings hx hy, List.mem_singleton] at hother
      rwa [hother]
  · simp [dragonSeed, alphabet]

theorem card_dragon_le (n : Nat) :
    ((dragonRules settings).generation n (dragonSeed settings).start).toFinset.card ≤ SymbolTable.capacity := by
  have hsubset : ((dragonRules settings).generation n (dragonSeed settings).start).toFinset ⊆
      (alphabet settings).toFinset := by
    intro symbol hsymbol
    exact List.mem_toFinset.2 (mem_alphabet settings n symbol (List.mem_toFinset.1 hsymbol))
  calc ((dragonRules settings).generation n (dragonSeed settings).start).toFinset.card
      ≤ (alphabet settings).toFinset.card := Finset.card_le_card hsubset
    _ ≤ (alphabet settings).length := List.toFinset_card_le _
    _ ≤ SymbolTable.capacity := by simp [alphabet, SymbolTable.capacity]

variable {settings}

/-- The draw symbol is one of the strokes, or it comes but once. -/
theorem count_drawSymbol (hcheck : settings.check = .ok ())
    (hdraw : settings.drawSymbol ≠ 'X' ∧ settings.drawSymbol ≠ 'Y') (n : Nat) :
    ((dragonRules settings).generation n (dragonSeed settings).start).count settings.drawSymbol =
      if settings.drawSymbol = 'F' then 2 ^ n else 1 := by
  obtain ⟨hx, hy⟩ := hdraw
  have hbends : bends (dragonSeed settings).start = 1 := by
    simp [bends, dragonSeed, hx, hy]
  have hstart : (dragonSeed settings).start.count settings.drawSymbol = 1 := by
    simp [dragonSeed, hx.symm]
  by_cases hstroke : settings.drawSymbol = 'F'
  · have hcount := count_stroke_generation settings n (dragonSeed settings).start
    rw [bends_generation, hbends, ← hstroke, hstart] at hcount
    rw [if_pos hstroke]
    omega
  · obtain ⟨hleft, hright, -⟩ := Symbol.isControl_eq_false_iff.1 (Settings.check_eq_ok.1 hcheck).1
    rw [if_neg hstroke, count_generation settings ⟨hx, hy, hleft, hright⟩ hstroke, hstart]

variable [Scalar α]

theorem marks_dragonRules (hcheck : settings.check = .ok ()) {gait : Gait α}
    (hdraw : gait.drawSymbol = settings.drawSymbol) (hmove : gait.moveSymbol = settings.moveSymbol) :
    gait.marks (dragonRules settings) symbol = (symbol == settings.drawSymbol) := by
  obtain ⟨hcontrol, -, hclash⟩ := Settings.check_eq_ok.1 hcheck
  rw [Bool.eq_iff_iff, Gait.marks_iff, hdraw, hmove, beq_iff_eq]
  constructor
  · rintro ⟨-, -, hdraws | hdraws⟩
    · exact hdraws
    · by_contra hne
      rw [draws_dragonRules settings hne] at hdraws
      cases hdraws
  · rintro rfl
    exact ⟨hcontrol, hclash, Or.inl rfl⟩

variable [Compass α]

/-- A dragon under checked settings is drawn, with a segment for each draw symbol of its word. -/
theorem render_dragonSeed (hcheck : settings.check = .ok ()) (hangle : Scalar.isFinite settings.angle = true)
    (hlength : Scalar.isFinite settings.length = true) (hpositive : ¬settings.length ≤ 0)
    (canvas : Canvas α) {n : Nat} (hn : n ≤ settings.maxGenerations) :
    ∃ picture, (Easel.mk settings canvas).render { dragonSeed settings with generations := n } = .ok picture ∧
      picture.drawnCount =
        ((dragonRules settings).generation n (dragonSeed settings).start).count settings.drawSymbol := by
  set easel : Easel α := ⟨settings, canvas⟩
  set sketch : Sketch α := { dragonSeed settings with generations := n }
  set word := (dragonRules settings).generation n (dragonSeed settings).start
  have hgrow : easel.grow sketch (dragonRules settings) = .ok word := (easel.grow_eq_ok sketch).2 ⟨hn, rfl⟩
  have hgait : (easel.gait sketch).check = .ok () := Gait.check_eq_ok.2 ⟨hangle, hlength, hpositive⟩
  have hdraw : draw (dragonRules settings) (easel.gait sketch) word =
      .ok (Turtle.initial.read (easel.gait sketch) (dragonRules settings) word) := by
    rw [draw_eq, hgait]
    exact if_pos (card_dragon_le settings n)
  have hpaint := easel.paint_eq_ok sketch hgrow hdraw
  have hrender := easel.render_eq_paint sketch (blanksIdle_dragonRules settings)
  refine ⟨_, hrender.trans (congrArg (Except.map _) hpaint), ?_⟩
  show (Turtle.initial.read (easel.gait sketch) (dragonRules settings) word).length = _
  rw [Turtle.length_read, List.count]
  congr 1
  ext symbol
  exact marks_dragonRules hcheck rfl rfl

/-- From settings to picture: everything succeeds, and the word of the dragon says how much is drawn. -/
theorem exists_picture (settings : Settings α) (canvas : Canvas α) (n : Nat) (hcheck : settings.check = .ok ())
    (hdraw : settings.drawSymbol ≠ 'X' ∧ settings.drawSymbol ≠ 'Y')
    (hangle : Scalar.isFinite settings.angle = true) (hlength : Scalar.isFinite settings.length = true)
    (hpositive : ¬settings.length ≤ 0) (hn : n ≤ settings.maxGenerations) :
    ∃ easel sketch picture, Easel.ofCanvas settings canvas = .ok easel ∧ dragon settings = .ok sketch ∧
      easel.render { sketch with generations := n } = .ok picture ∧
      picture.drawnCount = if settings.drawSymbol = 'F' then 2 ^ n else 1 := by
  obtain ⟨picture, hpicture, hcount⟩ := render_dragonSeed hcheck hangle hlength hpositive canvas hn
  rw [count_drawSymbol hcheck hdraw] at hcount
  refine ⟨⟨settings, canvas⟩, dragonSeed settings, picture, ?_, ?_, hpicture, hcount⟩
  · rw [Easel.ofCanvas, hcheck]
    rfl
  · rw [dragon, hcheck]
    rfl

end Sketch

/-- **The segments of the dragon.** They double from one generation to the next if the draw symbol is `F`, the
one that the rules of the dragon add; otherwise there is always one segment. -/
theorem dragon_drawnCount [Scalar α] [Compass α] (settings : Settings α) (canvas : Canvas α) (n : Nat)
    (hcheck : settings.check = .ok ())
    (hdraw : settings.drawSymbol ≠ 'X' ∧ settings.drawSymbol ≠ 'Y')
    (hangle : Scalar.isFinite settings.angle = true) (hlength : Scalar.isFinite settings.length = true)
    (hpositive : ¬settings.length ≤ 0) (hn : n ≤ settings.maxGenerations) :
    ∃ easel sketch picture, Easel.ofCanvas settings canvas = .ok easel ∧ Sketch.dragon settings = .ok sketch ∧
      easel.render { sketch with generations := n } = .ok picture ∧
      picture.drawnCount = (if settings.drawSymbol = 'F' then 2 ^ n else 1) ∧
      (picture.drawnCount = 2 ^ n ↔ settings.drawSymbol = 'F' ∨ n = 0) := by
  obtain ⟨easel, sketch, picture, heasel, hsketch, hpicture, hcount⟩ :=
    Sketch.exists_picture settings canvas n hcheck hdraw hangle hlength hpositive hn
  refine ⟨easel, sketch, picture, heasel, hsketch, hpicture, hcount, ?_⟩
  rw [hcount]
  by_cases hstroke : settings.drawSymbol = 'F'
  · simp [hstroke]
  · rw [if_neg hstroke, eq_comm, Nat.pow_eq_one]
    simp [hstroke]

theorem dragon_drawnCount_standard :
    ∃ easel sketch picture, Easel.ofCanvas Settings.standard Canvas.standard = .ok easel ∧
      Sketch.dragon Settings.standard = .ok sketch ∧
      easel.render { sketch with generations := 12 } = .ok picture ∧ picture.drawnCount = 4096 := by
  obtain ⟨easel, sketch, picture, heasel, hsketch, hpicture, hcount, -⟩ :=
    dragon_drawnCount Settings.standard Canvas.standard 12 rfl (by decide) (by decide) (by decide) (by decide)
      (by decide)
  exact ⟨easel, sketch, picture, heasel, hsketch, hpicture, hcount⟩

/-- The draw symbol `G` is drawn once in the first generation, where `F` is drawn twice. -/
theorem dragon_drawnCount_of_other_symbol :
    ∃ easel sketch picture,
      Easel.ofCanvas { Settings.standard with drawSymbol := 'G' } Canvas.standard = .ok easel ∧
      Sketch.dragon { Settings.standard with drawSymbol := 'G' } = .ok sketch ∧
      easel.render { sketch with generations := 1 } = .ok picture ∧
      picture.drawnCount = 1 ∧ picture.drawnCount ≠ 2 ^ 1 := by
  obtain ⟨easel, sketch, picture, heasel, hsketch, hpicture, hcount⟩ :=
    Sketch.exists_picture { Settings.standard with drawSymbol := 'G' } Canvas.standard 1 rfl (by decide)
      (by decide) (by decide) (by decide) (by decide)
  have hone : picture.drawnCount = 1 := hcount
  exact ⟨easel, sketch, picture, heasel, hsketch, hpicture, hone, by rw [hone]; decide⟩

end LSystem
