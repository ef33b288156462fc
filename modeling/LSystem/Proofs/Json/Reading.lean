import LSystem.Json.Value
import LSystem.Proofs.Json.Grammar
import Mathlib.Tactic.SplitIfs

/-! What readers take off the front of a text: blanks, single characters, and the characters of a string. Whatever
follows is left as it is, so these lemmas chain along a document. -/

namespace LSystem.Json

/-- The text is at its end, or a blank, a comma or a closing bracket follows: no scalar goes on here. -/
def Parted (rest : List Char) : Prop :=
  ∀ c tail, rest = c :: tail → isSpace c = true ∨ c = ',' ∨ c = ']' ∨ c = '\x7d'

theorem parted_nil : Parted [] := by
  intro c tail h
  cases h

theorem parted_cons {c : Char} (tail : List Char)
    (h : isSpace c = true ∨ c = ',' ∨ c = ']' ∨ c = '\x7d') : Parted (c :: tail) := by
  intro first rest heq
  obtain ⟨rfl, -⟩ := List.cons.inj heq
  exact h

theorem Parted.append {rest : List Char} (h : Parted rest) (gap : Gap) : Parted (gap ++ rest) := by
  obtain ⟨blanks, hblanks⟩ := gap
  cases blanks with
  | nil => exact h
  | cons c blanks => exact parted_cons _ (Or.inl (hblanks c List.mem_cons_self))

namespace Reader

variable {β γ : Type} {reader : Reader β} {text rest : List Char} {value : β}

theorem read_bind_of_ok (h : reader.read text = .ok (value, rest)) (next : β → Reader γ) :
    (reader >>= next).read text = (next value).read rest := by
  rw [read_bind, h]

theorem read_bind_of_error {problem : Problem} (h : reader.read text = .error problem) (next : β → Reader γ) :
    (reader >>= next).read text = .error problem := by
  rw [read_bind, h]

theorem read_peek (text : List Char) (next : Option Char → Reader γ) :
    (peek >>= next).read text = (next text.head?).read text := rfl

theorem read_skip (c : Char) (text : List Char) (next : Unit → Reader γ) :
    (skip >>= next).read (c :: text) = (next ()).read text := rfl

/-! ### Blanks and single characters -/

theorem skipBlanks_append (gap : Gap) (text : List Char) : skipBlanks (gap ++ text) = skipBlanks text :=
  List.dropWhile_append_of_pos gap.2

theorem skipBlanks_cons {c : Char} (hc : isSpace c = false) (text : List Char) :
    skipBlanks (c :: text) = c :: text :=
  List.dropWhile_cons_of_neg (by rw [← Bool.not_eq_true] at hc; exact hc)

variable {c : Char}

theorem read_next (gap : Gap) (hc : isSpace c = false) (text : List Char) :
    next.read (gap ++ c :: text) = .ok (c, c :: text) := by
  have hskip : skipBlanks (gap ++ c :: text) = c :: text := by
    rw [skipBlanks_append, skipBlanks_cons hc]
  simp only [next, read_bind, blanks, peek, hskip, List.head?_cons, read_pure]

theorem read_take (gap : Gap) (hc : isSpace c = false) (text : List Char) :
    take.read (gap ++ c :: text) = .ok (c, text) := by
  rw [take, read_bind_of_ok (read_next gap hc text)]
  rfl

theorem read_punctuation (gap : Gap) (hc : isSpace c = false) (text : List Char) :
    (punctuation c).read (gap ++ c :: text) = .ok ((), text) := by
  rw [punctuation, read_bind_of_ok (read_take gap hc text), if_pos rfl]
  rfl

theorem read_next_cons (hc : isSpace c = false) (text : List Char) : next.read (c :: text) = .ok (c, c :: text) :=
  read_next .none hc text

theorem read_take_cons (hc : isSpace c = false) (text : List Char) : take.read (c :: text) = .ok (c, text) :=
  read_take .none hc text

theorem read_punctuation_cons (hc : isSpace c = false) (text : List Char) :
    (punctuation c).read (c :: text) = .ok ((), text) :=
  read_punctuation .none hc text

/-- The reader looks for a character behind the blanks before it does anything else. -/
def SkipsGap (reader : Reader β) : Prop :=
  ∀ (gap : Gap) (text : List Char), reader.read (gap ++ text) = reader.read text

theorem skipsGap_next : SkipsGap next := by
  intro gap text
  simp only [next, read_bind, blanks, skipBlanks_append]

theorem SkipsGap.bind (h : SkipsGap reader) (after : β → Reader γ) : SkipsGap (reader >>= after) := by
  intro gap text
  rw [read_bind, read_bind, h gap text]

/-! ### Strings -/

theorem read_hexFour {hex : List Char} {n : Nat} (h : IsHex hex n) (text : List Char) :
    hexFour.read (hex ++ text) = .ok (n, text) := by
  obtain ⟨hlength, hvalue⟩ := h
  match hex, hlength with
  | [a, b, c, d], _ => simp only [hexFour, List.cons_append, List.nil_append, hvalue]

theorem read_codePoint {hex : List Char} {n : Nat} (h : IsHex hex n) (hplain : n < 0xD800 ∨ 0xDFFF < n)
    (text : List Char) : codePoint.read (hex ++ text) = .ok (Char.ofNat n, text) := by
  rw [codePoint, read_bind_of_ok (read_hexFour h text), if_neg (by omega), if_neg (by omega)]
  rfl

theorem read_expect (c : Char) (text : List Char) : (expect c).read (c :: text) = .ok ((), text) := by
  show (if c = c then skip else fail .malformed).read (c :: text) = _
  rw [if_pos rfl]
  rfl

theorem read_codePoint_pair {high low : List Char} {m n : Nat} (hhigh : IsHex high m) (hlow : IsHex low n)
    (hm : 0xD800 ≤ m ∧ m ≤ 0xDBFF) (hn : 0xDC00 ≤ n ∧ n ≤ 0xDFFF) (text : List Char) :
    codePoint.read (high ++ '\\' :: 'u' :: (low ++ text)) =
      .ok (Char.ofNat (0x10000 + (m - 0xD800) * 0x400 + (n - 0xDC00)), text) := by
  rw [codePoint, read_bind_of_ok (read_hexFour hhigh _), if_neg (by omega), if_pos hm, secondHalf,
    read_bind_of_ok (read_expect '\\' _), read_bind_of_ok (read_expect 'u' _),
    read_bind_of_ok (read_hexFour hlow text), if_pos hn]
  rfl

theorem read_escape_code (text : List Char) : escape.read ('u' :: text) = codePoint.read text := rfl

theorem read_escape_letter {c escaped : Char} (h : shortEscape? c = some escaped) (text : List Char) :
    escape.read (c :: text) = .ok (escaped, text) := by
  have hne : c ≠ 'u' := by
    rintro rfl
    cases h
  rw [escape, read_peek, List.head?_cons]
  simp only [read_skip, if_neg hne, h, read_pure]

theorem read_skipEscape_code {hex : List Char} {n : Nat} (h : IsHex hex n) (text : List Char) :
    skipEscape.read ('u' :: (hex ++ text)) = .ok ('u', text) := by
  show (hexFour >>= fun _ => (return 'u')).read (hex ++ text) = _
  rw [read_bind_of_ok (read_hexFour h text)]
  rfl

theorem read_skipEscape_letter {c : Char} (h : (shortEscape? c).isSome = true) (text : List Char) :
    skipEscape.read (c :: text) = .ok (c, text) := by
  have hne : c ≠ 'u' := by
    rintro rfl
    cases h
  rw [skipEscape, read_peek, List.head?_cons]
  simp only [read_skip, if_neg hne, h, if_true, read_pure]

section

variable {onEscape : Reader Char} (seen : List Char)

theorem charsOnto_quote (text : List Char) : charsOnto onEscape seen ('"' :: text) = .ok (seen.reverse, text) := by
  rw [charsOnto, if_pos rfl]

theorem charsOnto_raw (hraw : IsRaw c) (text : List Char) :
    charsOnto onEscape seen (c :: text) = charsOnto onEscape (c :: seen) text := by
  obtain ⟨hquote, hescape, hcontrol⟩ := hraw
  rw [charsOnto, if_neg hquote, if_neg hescape, if_neg (by omega)]

theorem charsOnto_escape {text rest : List Char} (h : onEscape.read text = .ok (c, rest)) :
    charsOnto onEscape seen ('\\' :: text) = charsOnto onEscape (c :: seen) rest := by
  rw [charsOnto, if_neg (by decide), if_pos rfl]
  split
  · next problem hproblem =>
      rw [h] at hproblem
      cases hproblem
  · next other rest' hok =>
      rw [h] at hok
      obtain ⟨rfl, rfl⟩ := Prod.mk.inj (Except.ok.inj hok)
      rfl

end

/-- A spelling is read as the word that it spells. -/
theorem charsOnto_spells {text word : List Char} (h : Spells text word) (seen rest : List Char) :
    charsOnto escape seen (text ++ '"' :: rest) = .ok (seen.reverse ++ word, rest) := by
  induction h generalizing seen with
  | nil => rw [List.nil_append, charsOnto_quote, List.append_nil]
  | raw hraw _ ih =>
      rw [List.cons_append, charsOnto_raw seen hraw, ih]
      simp
  | letter hletter _ ih =>
      rw [List.cons_append, List.cons_append, charsOnto_escape seen (read_escape_letter hletter _), ih]
      simp
  | @code hex text word n hhex hplain _ ih =>
      have hread := read_codePoint hhex hplain (text ++ '"' :: rest)
      rw [List.cons_append, List.cons_append, List.append_assoc,
        charsOnto_escape seen ((read_escape_code _).trans hread), ih]
      simp
  | @pair high low text word m n hhigh hlow hm hn _ ih =>
      have hread := read_codePoint_pair hhigh hlow hm hn (text ++ '"' :: rest)
      simp only [List.cons_append, List.append_assoc]
      rw [charsOnto_escape seen ((read_escape_code _).trans hread), ih]
      simp

theorem read_chars {text word : List Char} (h : Spells text word) (rest : List Char) :
    chars.read (text ++ '"' :: rest) = .ok (word, rest) :=
  charsOnto_spells h [] rest

/-- A string is passed over whatever it spells, and even if it spells nothing. -/
theorem charsOnto_isChars {text : List Char} (h : IsChars text) (seen rest : List Char) :
    ∃ passed, charsOnto skipEscape seen (text ++ '"' :: rest) = .ok (passed, rest) := by
  induction h generalizing seen with
  | nil => exact ⟨_, charsOnto_quote seen rest⟩
  | raw hraw _ ih =>
      rw [List.cons_append, charsOnto_raw seen hraw]
      exact ih _
  | letter hletter _ ih =>
      rw [List.cons_append, List.cons_append, charsOnto_escape seen (read_skipEscape_letter hletter _)]
      exact ih _
  | code hhex _ ih =>
      rw [List.cons_append, List.cons_append, List.append_assoc,
        charsOnto_escape seen (read_skipEscape_code hhex _)]
      exact ih _

theorem read_skipChars {text : List Char} (h : IsChars text) (rest : List Char) :
    skipChars.read (text ++ '"' :: rest) = .ok ((), rest) := by
  obtain ⟨passed, hpassed⟩ := charsOnto_isChars h [] rest
  simp only [skipChars, hpassed]
  rfl

/-! ### Written strings -/

theorem hexNumber?_control : ∀ n < 32, hexNumber? ('0' :: '0' :: hexPair n) = some n := by
  decide

theorem spells_stringChar {text word : List Char} (c : Char) (h : Spells text word) :
    Spells (stringChar c ++ text) (c :: word) := by
  unfold stringChar
  split
  case h_1 => exact .letter rfl h
  case h_2 => exact .letter rfl h
  case h_3 => exact .letter rfl h
  case h_4 => exact .letter rfl h
  case h_5 => exact .letter rfl h
  case h_6 => exact .letter rfl h
  case h_7 => exact .letter rfl h
  case h_8 hquote hescape _ _ _ _ _ =>
    split_ifs with hcontrol
    · have hcode := Spells.code ⟨rfl, hexNumber?_control c.toNat hcontrol⟩ (by omega) h
      rwa [Char.ofNat_toNat] at hcode
    · exact .raw ⟨hquote, hescape, Nat.le_of_not_lt hcontrol⟩ h

/-- What is written between quotes spells the word that it was written for. -/
theorem spells_written (word : List Char) : Spells (word.flatMap stringChar) word := by
  induction word with
  | nil => exact .nil
  | cons c word ih =>
      rw [List.flatMap_cons]
      exact spells_stringChar c ih

theorem string_eq (word rest : List Char) :
    Writer.string word rest = '"' :: (word.flatMap stringChar ++ '"' :: rest) := by
  rw [Writer.string]
  congr 1
  induction word with
  | nil => rfl
  | cons c word ih => rw [List.foldr_cons, ih, List.flatMap_cons, List.append_assoc]

theorem read_string (expected : String) (gap : Gap) (word rest : List Char) :
    (string expected).read (gap ++ Writer.string word rest) = .ok (word, rest) := by
  rw [string_eq, string, read_bind_of_ok (read_next gap (by decide) _), if_pos rfl]
  exact read_chars (spells_written word) rest

end Reader

end LSystem.Json
