import LSystem.Json.Record
import LSystem.Proofs.Json.Reading

/-! Objects are read member by member. One member takes the state of the reader to the next one (`Accepts`) or is
wrong in it (`Rejects`), and a list of members takes it along a chain of states (`Run`). -/

namespace LSystem.Json

/-- A member of an object as it may stand in a document: with blanks around each of its parts, a spelling of
its key, and what puts its value in front of the text that follows. -/
structure Member where
  before : Gap
  key : List Char
  behind : Gap
  inside : Gap
  value : List Char → List Char
  after : Gap

namespace Member

def write : Writer Member := fun m rest =>
  m.before ++ '"' :: (m.key ++ '"' :: (m.behind ++ ':' :: (m.inside ++ m.value (m.after ++ rest))))

/-- A member as it is written, without blanks. -/
def plain (key : List Char) (value : List Char → List Char) : Member :=
  ⟨.none, key.flatMap stringChar, .none, .none, value, .none⟩

theorem write_plain (key : List Char) (value : List Char → List Char) (rest : List Char) :
    (plain key value).write rest = Writer.member (key, value) rest := by
  rw [Writer.member, Reader.string_eq]
  rfl

end Member

/-- An object with the given members. -/
def objectText (before inside : Gap) (members : List Member) (rest : List Char) : List Char :=
  before ++ '\x7b' :: Writer.commas Member.write members (inside ++ '\x7d' :: rest)

theorem object_eq (members : List (List Char × (List Char → List Char))) (rest : List Char) :
    Writer.object members rest =
      objectText .none .none (members.map fun (key, value) => .plain key value) rest := by
  show '\x7b' :: _ = '\x7b' :: _
  congr 1
  cases members with
  | nil => rfl
  | cons first others =>
      simp only [List.map_cons, Writer.commas, List.foldr_map, Member.write_plain]
      rfl

namespace Reader

variable {σ : Type} {member : σ → List Char → Reader σ} {state next : σ} {members : List Member}
  {text rest : List Char}

theorem read_opened {β : Type} (reader : Reader β) (other : Char → Reader β) (before : Gap) (text : List Char) :
    (Reader.next >>= fun c => if c = '\x7b' then skip >>= fun _ => reader else other c).read
      (before ++ '\x7b' :: text) = reader.read text := by
  rw [read_bind_of_ok (read_next before (by decide) text), if_pos rfl, read_skip]

/-! ### One member after the other -/

theorem another_closing {closing : Char} (hclosing : isSpace closing = false) (first : Bool) (gap : Gap)
    (rest : List Char) : (another closing first).read (gap ++ closing :: rest) = .ok (false, closing :: rest) := by
  rw [another, read_bind_of_ok (read_next gap hclosing rest), if_pos rfl]
  rfl

theorem another_first {closing c : Char} (hc : isSpace c = false) (hne : c ≠ closing) (gap : Gap)
    (rest : List Char) : (another closing true).read (gap ++ c :: rest) = .ok (true, c :: rest) := by
  rw [another, read_bind_of_ok (read_next gap hc rest), if_neg hne]
  rfl

theorem another_later {closing c : Char} (hclosing : ',' ≠ closing) (hc : isSpace c = false) (hne : c ≠ closing)
    (gap : Gap) (rest : List Char) :
    (another closing false).read (',' :: (gap ++ c :: rest)) = .ok (true, c :: rest) := by
  rw [another, read_bind_of_ok (read_next_cons (by decide) _),
    if_neg hclosing]
  show (Reader.next >>= fun c => if c = closing then fail .malformed else return true).read (gap ++ c :: rest) = _
  rw [read_bind_of_ok (read_next gap hc rest), if_neg hne]
  rfl

theorem membersFrom_eq (member : σ → List Char → Reader σ) (first : Bool) (state : σ) (text : List Char) :
    membersFrom member first state text =
      match (another '\x7d' first).read text with
      | .error problem => .error problem
      | .ok (false, rest) => .ok (state, rest)
      | .ok (true, rest) =>
        match (take >>= keyed member state).read rest with
        | .error problem => .error problem
        | .ok (next, rest) => membersFrom member false next rest := by
  rw [membersFrom.eq_def]
  split
  · next h => rw [h]
  · next h => rw [h]
  · next h =>
      simp only [h]
      split
      · next h' => rw [h']
      · next h' => rw [h']

theorem membersFrom_append (first : Bool) (gap : Gap) (text : List Char) :
    membersFrom member first state (gap ++ text) = membersFrom member first state text := by
  have hanother : SkipsGap (another '\x7d' first) := skipsGap_next.bind _
  rw [membersFrom_eq, membersFrom_eq, hanother]

theorem membersFrom_closing (first : Bool) (gap : Gap) (rest : List Char) :
    membersFrom member first state (gap ++ '\x7d' :: rest) = .ok (state, '\x7d' :: rest) := by
  rw [membersFrom_eq, another_closing (by decide)]

/-- What one member makes of the state. -/
def Accepts (member : σ → List Char → Reader σ) (state : σ) (m : Member) (next : σ) : Prop :=
  ∃ name, Spells m.key name ∧ ∀ rest, Parted rest →
    (member state name).read (m.behind ++ ':' :: (m.inside ++ m.value rest)) = .ok (next, rest)

/-- What is wrong with one member in this state. -/
def Rejects (member : σ → List Char → Reader σ) (state : σ) (m : Member) (problem : Problem) : Prop :=
  ∃ name, Spells m.key name ∧ ∀ rest, Parted rest →
    (member state name).read (m.behind ++ ':' :: (m.inside ++ m.value rest)) = .error problem

/-- Further members, each with a comma in front, and what follows them. -/
def laterText (members : List Member) (rest : List Char) : List Char :=
  members.foldr (fun m rest => ',' :: m.write rest) rest

theorem laterText_append (members others : List Member) (rest : List Char) :
    laterText (members ++ others) rest = laterText members (laterText others rest) :=
  List.foldr_append

theorem parted_laterText (members : List Member) {rest : List Char} (hrest : Parted rest) :
    Parted (laterText members rest) := by
  cases members with
  | nil => exact hrest
  | cons m members => exact parted_cons _ (by decide)

theorem another_member (m : Member) (rest : List Char) :
    (another '\x7d' false).read (',' :: m.write rest) = (another '\x7d' true).read (m.write rest) := by
  rw [Member.write, another_later (by decide) (by decide) (by decide), another_first (by decide) (by decide)]

/-- The first member is read as if there were a comma in front of it. -/
theorem membersFrom_commas (m : Member) (members : List Member) (rest : List Char) :
    membersFrom member true state (Writer.commas Member.write (m :: members) rest) =
      membersFrom member false state (laterText (m :: members) rest) := by
  show membersFrom member true state (m.write (laterText members rest)) =
    membersFrom member false state (',' :: m.write (laterText members rest))
  rw [membersFrom_eq, membersFrom_eq, another_member]

theorem membersFrom_member (m : Member) (rest : List Char) {name : List Char} (hkey : Spells m.key name) :
    membersFrom member false state (',' :: m.write rest) =
      match (member state name).read (m.behind ++ ':' :: (m.inside ++ m.value (m.after ++ rest))) with
      | .error problem => .error problem
      | .ok (next, rest) => membersFrom member false next rest := by
  have hkeyed : ∀ text, (take >>= keyed member state).read ('"' :: (m.key ++ '"' :: text)) =
      (member state name).read text := by
    intro text
    rw [read_bind_of_ok (read_take_cons (by decide) _), keyed, if_pos rfl, read_bind_of_ok (read_chars hkey _)]
  rw [membersFrom_eq, another_member, Member.write, another_first (by decide) (by decide)]
  simp only [hkeyed]

theorem membersFrom_of_accepts {m : Member} (h : Accepts member state m next) (hrest : Parted rest) :
    membersFrom member false state (',' :: m.write rest) = membersFrom member false next rest := by
  obtain ⟨name, hkey, hread⟩ := h
  rw [membersFrom_member m rest hkey, hread _ (hrest.append m.after)]
  exact membersFrom_append false m.after rest

theorem membersFrom_of_rejects {m : Member} {problem : Problem} (h : Rejects member state m problem)
    (hrest : Parted rest) : membersFrom member false state (',' :: m.write rest) = .error problem := by
  obtain ⟨name, hkey, hread⟩ := h
  rw [membersFrom_member m rest hkey, hread _ (hrest.append m.after)]

/-- What a list of members makes of the state, one after the other. -/
inductive Run (member : σ → List Char → Reader σ) : σ → List Member → σ → Prop
  | nil {state : σ} : Run member state [] state
  | cons {state next final : σ} {m : Member} {members : List Member} (hfirst : Accepts member state m next)
      (hmore : Run member next members final) : Run member state (m :: members) final

theorem membersFrom_run {final : σ} (h : Run member state members final) (hrest : Parted rest) :
    membersFrom member false state (laterText members rest) = membersFrom member false final rest := by
  induction h with
  | nil => rfl
  | cons hfirst _ ih => exact (membersFrom_of_accepts hfirst (parted_laterText _ hrest)).trans ih

theorem read_members {final : σ} (h : Run member state members final) (inside : Gap) (rest : List Char) :
    (Reader.members member state).read (Writer.commas Member.write members (inside ++ '\x7d' :: rest)) =
      .ok (final, rest) := by
  have hparted : Parted (inside ++ '\x7d' :: rest) := (parted_cons rest (by decide)).append inside
  have hfrom : membersFrom member true state (Writer.commas Member.write members (inside ++ '\x7d' :: rest)) =
      .ok (final, '\x7d' :: rest) := by
    cases h with
    | nil => exact membersFrom_closing true inside rest
    | cons hfirst hmore =>
        rw [membersFrom_commas, membersFrom_run (.cons hfirst hmore) hparted]
        exact membersFrom_closing false inside rest
  rw [Reader.members, read_bind_of_ok hfrom, read_bind_of_ok (read_punctuation_cons (by decide) rest)]
  rfl

/-- The first member that is wrong decides; what follows it is not looked at. -/
theorem read_members_of_rejects {mid : σ} (h : Run member state members mid) {m : Member} {problem : Problem}
    (hm : Rejects member mid m problem) (others : List Member) (hrest : Parted rest) :
    (Reader.members member state).read (Writer.commas Member.write (members ++ m :: others) rest) =
      .error problem := by
  have hlater : membersFrom member false state (laterText (members ++ m :: others) rest) = .error problem := by
    rw [laterText_append, membersFrom_run h (parted_laterText _ hrest)]
    exact membersFrom_of_rejects hm (parted_laterText others hrest)
  have hfrom : membersFrom member true state (Writer.commas Member.write (members ++ m :: others) rest) =
      .error problem := by
    cases members with
    | nil =>
        rw [List.nil_append, membersFrom_commas]
        exact hlater
    | cons first members =>
        rw [List.cons_append, membersFrom_commas]
        exact hlater
  rw [Reader.members, read_bind_of_error hfrom]

end Reader

end LSystem.Json
