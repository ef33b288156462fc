import LSystem.Proofs.Turtle.SymbolTable

/-! Many words coded with one codebook. Each word finds the symbols of the words before it in the book and adds its
own. A word that runs out of room leaves those of its symbols behind that came before the one refused, so the book
changes even then; but it only ever grows at its end. All words that were coded can therefore be read with the list
that the book has in the end (`Lists.encodeAll`). -/

namespace LSystem.Codebook

open SymbolTable

/-- The symbols that have a code. -/
def symbols (book : Codebook) : Finset Char := book.codes.keys.toFinset

/-- What coding some words one after the other gives for each of them, and the book after that. -/
def encodeAll (book : Codebook) : List Word → List (Option (List Nat)) × Codebook
  | [] => ([], book)
  | word :: words =>
    let first := book.encode word
    let others := first.2.encodeAll words
    (first.1 :: others.1, others.2)

variable {book : Codebook} {seen : List Char} {symbol : Char}

theorem encodeAll_append (book : Codebook) (front back : List Word) :
    book.encodeAll (front ++ back) =
      ((book.encodeAll front).1 ++ ((book.encodeAll front).2.encodeAll back).1,
        ((book.encodeAll front).2.encodeAll back).2) := by
  induction front generalizing book with
  | nil => rfl
  | cons word front ih =>
      rw [List.cons_append, encodeAll, ih]
      rfl

theorem Lists.symbols_eq (h : book.Lists seen) : book.symbols = seen.toFinset := by
  ext symbol
  have hcode : book.codes[symbol]? = _ := h.code?_eq symbol
  rw [symbols, List.mem_toFinset, List.mem_toFinset, Std.HashMap.mem_keys, ← Std.HashMap.isSome_getElem?_iff_mem,
    hcode]
  split_ifs with hmem <;> simp [hmem]

/-- The symbols in the book and in a word are those that are listed once the word has come. -/
theorem Lists.union_eq (h : book.Lists seen) (word : Word) :
    book.symbols ∪ word.toFinset = (listing seen word).toFinset := by
  rw [h.symbols_eq]
  ext symbol
  simp [mem_listing]

/-! ### One word -/

/-- A word goes into the book as a whole or, if the room runs out, up to a symbol that is refused. -/
theorem Lists.encode_cases (h : book.Lists seen) (hseen : seen.length ≤ capacity) (word : Word) :
    ((listing seen word).length ≤ capacity ∧ ∃ after,
      book.encode word = (some (word.map (listing seen word).idxOf), after) ∧ after.Lists (listing seen word)) ∨
    (capacity < (listing seen word).length ∧ ∃ taken refused rest after, word = taken ++ refused :: rest ∧
      refused ∉ listing seen taken ∧ (listing seen taken).length = capacity ∧
      book.encode word = (none, after) ∧ after.Lists (listing seen taken)) := by
  rcases Nat.lt_or_ge capacity (listing seen word).length with hfull | hroom
  · exact Or.inr ⟨hfull, h.encode_of_full hseen hfull⟩
  · exact Or.inl ⟨hroom, h.exists_encode hroom⟩

/-- A word is refused if and only if there are too many symbols in the book and in the word. -/
theorem Lists.encode_eq_none_iff (h : book.Lists seen) (hseen : seen.length ≤ capacity) (word : Word) :
    (book.encode word).1 = none ↔ capacity < (book.symbols ∪ word.toFinset).card := by
  rw [h.union_eq, List.toFinset_card_of_nodup (nodup_listing h.nodup word)]
  rcases h.encode_cases hseen word with ⟨hroom, after, hencode, -⟩ |
    ⟨hfull, taken, refused, rest, after, -, -, -, hencode, -⟩
  · simp [hencode, hroom]
  · simp [hencode, hfull]

theorem Lists.symbols_of_some (h : book.Lists seen) (hseen : seen.length ≤ capacity) {word : Word} {codes : List Nat}
    (hcodes : (book.encode word).1 = some codes) :
    (book.encode word).2.symbols = book.symbols ∪ word.toFinset := by
  rcases h.encode_cases hseen word with ⟨-, after, hencode, hafter⟩ |
    ⟨-, taken, refused, rest, after, -, -, -, hencode, -⟩
  · rw [hencode, h.union_eq]
    exact hafter.symbols_eq
  · rw [hencode] at hcodes
    cases hcodes

theorem Lists.symbols_of_none (h : book.Lists seen) (hseen : seen.length ≤ capacity) {word : Word}
    (hcodes : (book.encode word).1 = none) :
    ∃ taken refused rest, word = taken ++ refused :: rest ∧ refused ∉ book.symbols ∪ taken.toFinset ∧
      (book.symbols ∪ taken.toFinset).card = capacity ∧
      (book.encode word).2.symbols = book.symbols ∪ taken.toFinset := by
  rcases h.encode_cases hseen word with ⟨-, after, hencode, -⟩ |
    ⟨-, taken, refused, rest, after, rfl, hnew, hlength, hencode, hafter⟩
  · rw [hencode] at hcodes
    cases hcodes
  · refine ⟨taken, refused, rest, rfl, ?_⟩
    rw [h.union_eq, hencode]
    refine ⟨mt List.mem_toFinset.1 hnew, ?_, hafter.symbols_eq⟩
    rw [List.toFinset_card_of_nodup hafter.nodup, hlength]

/-! ### One word after the other -/

/-- The codes of a word are the places of its symbols in a list. -/
def Places (final : List Char) (word : Word) (codes : Option (List Nat)) : Prop :=
  ∀ found, codes = some found → found = word.map final.idxOf ∧ ∀ symbol ∈ word, symbol ∈ final

theorem Places.mono {front whole : List Char} {word : Word} {codes : Option (List Nat)} (h : Places front word codes)
    (hfront : front <+: whole) : Places whole word codes := by
  intro found hfound
  obtain ⟨rfl, hmem⟩ := h found hfound
  refine ⟨List.map_congr_left fun symbol hsymbol => ?_, fun symbol hsymbol => hfront.subset (hmem symbol hsymbol)⟩
  exact (idxOf_of_front hfront (hmem symbol hsymbol)).symm

theorem Places.map_code? {final : List Char} {word : Word} {codes : List Nat} (h : Places final word (some codes))
    (hbook : book.Lists final) : codes.map some = word.map book.code? := by
  obtain ⟨rfl, hmem⟩ := h codes rfl
  rw [List.map_map]
  exact List.map_congr_left fun symbol hsymbol => (hbook.code?_of_mem (hmem symbol hsymbol)).symm

theorem Places.of_mem_zip {final : List Char} {word : Word} {codes : List Nat} (h : Places final word (some codes))
    {place : Char × Nat} (hplace : place ∈ word.zip codes) : place.1 ∈ final ∧ place.2 = final.idxOf place.1 := by
  obtain ⟨rfl, hmem⟩ := h codes rfl
  rw [← List.map_prod_left_eq_zip, List.mem_map] at hplace
  obtain ⟨symbol, hsymbol, rfl⟩ := hplace
  exact ⟨hmem symbol hsymbol, rfl⟩

/-- What one word does: the list grows at its end and has all the symbols of a word that was coded. -/
theorem Lists.encode (h : book.Lists seen) (hseen : seen.length ≤ capacity) (word : Word) :
    ∃ next, (book.encode word).2.Lists next ∧ next.length ≤ capacity ∧ seen <+: next ∧
      Places next word (book.encode word).1 := by
  rcases h.encode_cases hseen word with ⟨hroom, after, hencode, hafter⟩ |
    ⟨-, taken, refused, rest, after, -, -, hlength, hencode, hafter⟩
  · rw [hencode]
    refine ⟨_, hafter, hroom, prefix_listing seen word, ?_⟩
    rintro found ⟨⟩
    exact ⟨rfl, fun symbol hsymbol => mem_listing.2 (Or.inr hsymbol)⟩
  · rw [hencode]
    exact ⟨_, hafter, hlength.le, prefix_listing seen taken, fun found hfound => nomatch hfound⟩

/-- What many words do: each that was coded has the codes of the list at the end. -/
theorem Lists.encodeAll (h : book.Lists seen) (hseen : seen.length ≤ capacity) (words : List Word) :
    ∃ final, (book.encodeAll words).2.Lists final ∧ final.length ≤ capacity ∧ seen <+: final ∧
      List.Forall₂ (Places final) words (book.encodeAll words).1 := by
  induction words generalizing book seen with
  | nil => exact ⟨seen, h, hseen, List.prefix_rfl, .nil⟩
  | cons word words ih =>
      obtain ⟨next, hnext, hlength, hfront, hplaces⟩ := h.encode hseen word
      obtain ⟨final, hfinal, hroom, hwhole, hothers⟩ := ih hnext hlength
      exact ⟨final, hfinal, hroom, hfront.trans hwhole, .cons (hplaces.mono hwhole) hothers⟩

theorem Lists.code?_encodeAll (h : book.Lists seen) (hseen : seen.length ≤ capacity) (words : List Word) {code : Nat}
    (hcode : book.code? symbol = some code) : (book.encodeAll words).2.code? symbol = some code := by
  obtain ⟨final, hfinal, -, hfront, -⟩ := h.encodeAll hseen words
  obtain ⟨hmem, hplace⟩ := Option.ite_none_right_eq_some.1 ((h.code?_eq symbol).symm.trans hcode)
  refine (hfinal.code?_of_mem (hfront.subset hmem)).trans ?_
  rw [idxOf_of_front hfront hmem, hplace]

/-- **One book for many words.** However many words are coded one after the other, and whichever of them were refused:
a word that was coded has one code for each of its symbols, in their order, and two places in two such words have the
same code if and only if they have the same symbol. A code once given never changes. The next word is refused if and
only if its symbols and those in the book are more than 65535; then those of its symbols stay in the book that come
before the one refused, and otherwise all of them do. -/
theorem encodeAll_faithful (words : List Word) :
    let outcomes := (empty.encodeAll words).1
    let book := (empty.encodeAll words).2
    outcomes.length = words.length ∧
    (∀ word codes, (word, some codes) ∈ words.zip outcomes →
      codes.length = word.length ∧ codes.map some = word.map book.code? ∧
      ∀ other others, (other, some others) ∈ words.zip outcomes →
        ∀ place ∈ word.zip codes, ∀ place' ∈ other.zip others, place.2 = place'.2 ↔ place.1 = place'.1) ∧
    (∀ more symbol code, book.code? symbol = some code →
      (empty.encodeAll (words ++ more)).2.code? symbol = some code) ∧
    ∀ word,
      empty.encodeAll (words ++ [word]) = (outcomes ++ [(book.encode word).1], (book.encode word).2) ∧
      ((book.encode word).1 = none ↔ 65535 < (book.symbols ∪ word.toFinset).card) ∧
      (∀ codes, (book.encode word).1 = some codes →
        (book.encode word).2.symbols = book.symbols ∪ word.toFinset) ∧
      ((book.encode word).1 = none → ∃ taken refused rest, word = taken ++ refused :: rest ∧
        refused ∉ book.symbols ∪ taken.toFinset ∧ (book.symbols ∪ taken.toFinset).card = 65535 ∧
        (book.encode word).2.symbols = book.symbols ∪ taken.toFinset) := by
  intro outcomes book
  obtain ⟨final, hbook, hroom, -, hall⟩ := lists_empty.encodeAll (Nat.zero_le capacity) words
  have hplaces : ∀ {word codes}, (word, some codes) ∈ words.zip outcomes → Places final word (some codes) :=
    (List.forall₂_iff_zip.1 hall).2
  refine ⟨hall.length_eq.symm, ?_, ?_, ?_⟩
  · intro word codes hword
    have hcodes := (hplaces hword).map_code? hbook
    refine ⟨by simpa using congrArg List.length hcodes, hcodes, ?_⟩
    intro other others hother place hplace place' hplace'
    obtain ⟨hmem, hcode⟩ := (hplaces hword).of_mem_zip hplace
    obtain ⟨-, hcode'⟩ := (hplaces hother).of_mem_zip hplace'
    rw [hcode, hcode', List.idxOf_inj hmem]
  · intro more symbol code hcode
    rw [encodeAll_append]
    exact hbook.code?_encodeAll hroom more hcode
  · intro word
    refine ⟨encodeAll_append empty words [word], hbook.encode_eq_none_iff hroom word, ?_, ?_⟩
    · intro codes hcodes
      exact hbook.symbols_of_some hroom hcodes
    · exact hbook.symbols_of_none hroom

/-- Two words with room for them, and one of 65536 different symbols, which fills the book and is refused. -/
theorem encodeAll_faithful_of_overflow :
    let plane : Word := (List.range 65536).map fun n => Char.ofNat (65536 + n)
    let words : List Word := [['F', 'X'], ['X', 'Y']]
    let book := (empty.encodeAll words).2
    (empty.encodeAll words).1 = [some [0, 1], some [1, 2]] ∧ (book.encode plane).1 = none ∧
      (book.encode plane).2.symbols.card = 65535 ∧ (empty.encodeAll (words ++ [plane])).2.code? 'Y' = some 2 := by
  intro plane words book
  have htoNat : ∀ n ∈ List.range 65536, (Char.ofNat (65536 + n)).toNat = 65536 + n := by
    intro n hn
    rw [List.mem_range] at hn
    rw [Char.ofNat, dif_pos (.inr ⟨by omega, by omega⟩)]
    rfl
  have hplane : plane.Nodup := by
    refine List.nodup_range.map_on fun m hm n hn heq => ?_
    have hnat := congrArg Char.toNat heq
    rw [htoNat m hm, htoNat n hn] at hnat
    exact Nat.add_left_cancel hnat
  have hcard : 65535 < (book.symbols ∪ plane.toFinset).card := by
    calc 65535 < plane.length := by simp [plane]
      _ = plane.toFinset.card := (List.toFinset_card_of_nodup hplane).symm
      _ ≤ (book.symbols ∪ plane.toFinset).card := Finset.card_le_card Finset.subset_union_right
  obtain ⟨-, -, hstable, hnext⟩ := encodeAll_faithful words
  obtain ⟨-, hrefused, -, hleft⟩ := hnext plane
  have hnone := hrefused.2 hcard
  obtain ⟨taken, refused, rest, -, -, hfull, hsymbols⟩ := hleft hnone
  have hroom : (listing [] ['F', 'X']).length ≤ capacity := by decide
  have hmore : (listing (listing [] ['F', 'X']) ['X', 'Y']).length ≤ capacity := by decide
  obtain ⟨first, hfirst, hlists⟩ := lists_empty.exists_encode hroom
  obtain ⟨second, hsecond, hboth⟩ := hlists.exists_encode hmore
  have hwords : empty.encodeAll words = ([some [0, 1], some [1, 2]], second) := by
    simp only [words, encodeAll, hfirst, hsecond]
    rfl
  have hcode : book.code? 'Y' = some 2 := by
    rw [show book = second from congrArg Prod.snd hwords]
    exact hboth.code?_of_mem (by decide)
  refine ⟨congrArg Prod.fst hwords, hnone, ?_, hstable [plane] 'Y' 2 hcode⟩
  rw [hsymbols, hfull]

end LSystem.Codebook
