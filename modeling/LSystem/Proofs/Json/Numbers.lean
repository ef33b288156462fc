import LSystem.Proofs.Json.Reading

/-! Numbers in documents. A whole number comes back from its digits, and what a reader of numbers makes of a
text on its own it makes of it in front of a comma, a bracket or a blank as well (`stable_number`). -/

namespace LSystem.Json

theorem Parted.head?_ne {rest : List Char} (h : Parted rest) {c : Char}
    (hc : isSpace c = false ∧ c ≠ ',' ∧ c ≠ ']' ∧ c ≠ '\x7d') : rest.head? ≠ some c := by
  intro hhead
  obtain ⟨tail, rfl⟩ := List.head?_eq_some_iff.mp hhead
  obtain ⟨hspace, hcomma, hbracket, hbrace⟩ := hc
  have hparted := h c tail rfl
  simp only [hspace, hcomma, hbracket, hbrace, Bool.false_eq_true, or_self] at hparted

/-- No digit follows. -/
def NoDigit (rest : List Char) : Prop := ∀ c tail, rest = c :: tail → c.isDigit = false

theorem noDigit_cons {c : Char} (h : c.isDigit = false) (tail : List Char) : NoDigit (c :: tail) := by
  intro first rest heq
  obtain ⟨rfl, -⟩ := List.cons.inj heq
  exact h

theorem Parted.noDigit {rest : List Char} (h : Parted rest) : NoDigit rest := by
  rintro c tail rfl
  have hc := h c tail rfl
  simp only [isSpace, Bool.or_eq_true, decide_eq_true_eq] at hc
  rcases hc with (((rfl | rfl) | rfl) | rfl) | rfl | rfl | rfl <;> decide

theorem NoDigit.append {text tail : List Char} (htext : NoDigit text) (htail : NoDigit tail) :
    NoDigit (text ++ tail) := by
  cases text with
  | nil => exact htail
  | cons c text => exact noDigit_cons (htext c text rfl) _

namespace Reader

open Number

theorem read_digits {text rest : List Char} (htext : ∀ c ∈ text, c.isDigit = true) (hrest : NoDigit rest) :
    digits.read (text ++ rest) = .ok (text, rest) := by
  have hfront : rest.takeWhile Char.isDigit = [] ∧ rest.dropWhile Char.isDigit = rest := by
    cases rest with
    | nil => exact ⟨rfl, rfl⟩
    | cons c tail => simp [hrest c tail rfl]
  simp only [digits, List.takeWhile_append_of_pos htext, List.dropWhile_append_of_pos htext, hfront.1, hfront.2,
    List.append_nil]

theorem expectDigit_cons {c : Char} (hc : c.isDigit = true) (text : List Char) :
    expectDigit.read (c :: text) = .ok ((), c :: text) := by
  show (if c.isDigit = true then (return ()) else fail .malformed).read (c :: text) = _
  rw [if_pos hc]
  rfl

/-! ### Whole numbers -/

theorem le_ofDigitChars (text : List Char) (n : Nat) : n ≤ Nat.ofDigitChars 10 text n := by
  induction text generalizing n with
  | nil => exact Nat.le_refl n
  | cons c text ih =>
      rw [Nat.ofDigitChars_cons]
      exact Nat.le_trans (by omega) (ih _)

/-- Digits are taken in as long as the number that they make up fits. -/
theorem onDigits_append {text rest : List Char} (htext : ∀ c ∈ text, c.isDigit = true) (hrest : NoDigit rest)
    (significand count : Nat) (hfits : Nat.ofDigitChars 10 text significand ≤ maxSignificand) :
    onDigits (text ++ rest) significand count =
      ((Nat.ofDigitChars 10 text significand, count + text.length), rest) := by
  induction text generalizing significand count with
  | nil =>
      cases rest with
      | nil => rfl
      | cons c tail => simp [onDigits, hrest c tail rfl]
  | cons c text ih =>
      have hlarger : significand * 10 + digitValue c = 10 * significand + (c.toNat - '0'.toNat) := by
        rw [Nat.mul_comm]
        rfl
      rw [Nat.ofDigitChars_cons] at hfits ⊢
      have hroom := Nat.le_trans (le_ofDigitChars text _) hfits
      have hdigit := htext c List.mem_cons_self
      rw [List.cons_append, onDigits]
      simp only [hlarger, hdigit, hroom, decide_true, Bool.and_self, if_true]
      rw [ih (fun d hd => htext d (List.mem_cons_of_mem c hd)) _ _ hfits, List.length_cons]
      congr 2
      omega

theorem isDigit_of_mem_digitsText {n : Nat} {c : Char} (h : c ∈ Decimal.digitsText n) : c.isDigit = true :=
  Nat.isDigit_of_mem_toDigits (by decide) (by decide) h

theorem digitsText_cons (n : Nat) :
    ∃ c text, Decimal.digitsText n = c :: text ∧ c.isDigit = true := by
  cases htext : Decimal.digitsText n with
  | nil => exact absurd htext Nat.toDigits_ne_nil
  | cons c text => exact ⟨c, text, rfl, isDigit_of_mem_digitsText (htext ▸ List.mem_cons_self)⟩

/-- Only zero is written with a zero in front. -/
theorem digitsText_head_ne_zero {n : Nat} (hn : n ≠ 0) : (Decimal.digitsText n).head? ≠ some '0' := by
  induction n using Nat.strongRecOn with
  | ind n ih =>
      by_cases hsmall : n < 10
      · have hdigits : ∀ n < 10, n ≠ 0 → (Decimal.digitsText n).head? ≠ some '0' := by decide
        exact hdigits n hsmall hn
      · obtain ⟨c, text, htext, -⟩ := digitsText_cons (n / 10)
        have hsplit : Decimal.digitsText n = Decimal.digitsText (n / 10) ++ [(n % 10).digitChar] :=
          Nat.toDigits_of_base_le (by decide) (Nat.le_of_not_lt hsmall)
        have hhead := ih (n / 10) (by omega) (by omega)
        rw [htext] at hhead
        rwa [hsplit, htext, List.cons_append]

theorem read_digits_none {rest : List Char} (hrest : NoDigit rest) : digits.read rest = .ok ([], rest) := by
  have hnone : ∀ c ∈ ([] : List Char), c.isDigit = true := by simp
  exact read_digits hnone hrest

theorem whole_cons {c : Char} (hc : c.isDigit = true) (text : List Char) :
    whole.read (c :: text) =
      if c = '0' then
        (digits >>= fun left => if left.isEmpty then return (0, 0) else fail .malformed).read text
      else (digitsOnto 0 >>= fun taken => digits >>= fun left => return (taken.1, left.length)).read (c :: text) := by
  rw [whole, read_bind_of_ok (expectDigit_cons hc text)]
  by_cases hzero : c = '0'
  · subst hzero
    rfl
  · have hfirst : (some c == some '0') = false := by simpa using hzero
    rw [if_neg hzero, read_peek, List.head?_cons, hfirst, if_neg Bool.false_ne_true]

theorem read_whole {n : Nat} (hn : n ≤ maxSignificand) {rest : List Char} (hrest : NoDigit rest) :
    whole.read (Decimal.digitsText n ++ rest) = .ok ((n, 0), rest) := by
  by_cases hzero : n = 0
  · subst hzero
    show whole.read ('0' :: rest) = _
    rw [whole_cons (by decide), if_pos rfl, read_bind_of_ok (read_digits_none hrest)]
    rfl
  · obtain ⟨c, text, htext, -⟩ := digitsText_cons n
    have hc : c ≠ '0' := by
      have hhead := digitsText_head_ne_zero hzero
      rw [htext] at hhead
      rintro rfl
      exact hhead rfl
    have hdigits : ∀ d ∈ c :: text, d.isDigit = true := fun d hd => isDigit_of_mem_digitsText (htext ▸ hd)
    have hvalue : Nat.ofDigitChars 10 (c :: text) 0 = n := by
      rw [← htext]
      exact Nat.ofDigitChars_toDigits (by decide) (by decide)
    have htaken : (digitsOnto 0).read (c :: (text ++ rest)) = .ok ((n, 0 + (c :: text).length), rest) := by
      have honto := onDigits_append hdigits hrest 0 0 (by omega)
      rw [hvalue] at honto
      exact congrArg Except.ok honto
    rw [htext, List.cons_append, whole_cons (hdigits c List.mem_cons_self), if_neg hc, read_bind_of_ok htaken,
      read_bind_of_ok (read_digits_none hrest)]
    rfl

/-- What a number is, behind its whole part. -/
def remainder (negative : Bool) (significand dropped : Nat) : Reader Number := do
  match ← peek with
  | some '.' =>
    skip
    let (significand, places) ← decimals significand
    float negative significand (dropped - places + (← optionalExponent))
  | some 'e' | some 'E' => float negative significand (dropped + (← optionalExponent))
  | _ => if dropped = 0 then return ofWhole negative significand else float negative significand dropped

theorem number_cons (c : Char) (text : List Char) :
    number.read (c :: text) =
      if c = '-' then (whole >>= fun (significand, dropped) => remainder true significand dropped).read text
      else (whole >>= fun (significand, dropped) => remainder false significand dropped).read (c :: text) := by
  by_cases hc : c = '-'
  · subst hc
    rfl
  · have hsign : (some c == some '-') = false := by simpa using hc
    rw [if_neg hc, number]
    show (let negative := some c == some '-'
      if negative = true then
        skip >>= fun _ => whole >>= fun (significand, dropped) => remainder negative significand dropped
      else whole >>= fun (significand, dropped) => remainder negative significand dropped).read (c :: text) = _
    simp only [hsign, Bool.false_eq_true, if_false]

/-- Neither a point nor an exponent follows. -/
theorem remainder_parted {rest : List Char} (hrest : Parted rest) (negative : Bool) (significand dropped : Nat) :
    (remainder negative significand dropped).read rest =
      (if dropped = 0 then return ofWhole negative significand
        else float negative significand dropped : Reader Number).read rest := by
  cases rest with
  | nil => rfl
  | cons c tail =>
      rw [remainder, read_peek]
      split
      · next h => exact absurd h (hrest.head?_ne (by decide))
      · next h => exact absurd h (hrest.head?_ne (by decide))
      · next h => exact absurd h (hrest.head?_ne (by decide))
      · rfl

theorem ne_of_isDigit {c other : Char} (hc : c.isDigit = true) (hother : other.isDigit = false) : c ≠ other := by
  rintro rfl
  exact Bool.noConfusion (hc.symm.trans hother)

theorem read_number {n : Nat} (hn : n ≤ maxSignificand) {rest : List Char} (hrest : Parted rest) :
    number.read (Decimal.digitsText n ++ rest) = .ok (.integer n, rest) := by
  have hwhole := read_whole hn hrest.noDigit
  obtain ⟨c, text, htext, hc⟩ := digitsText_cons n
  rw [htext] at hwhole ⊢
  rw [List.cons_append, number_cons, if_neg (ne_of_isDigit hc rfl), ← List.cons_append, read_bind_of_ok hwhole,
    remainder_parted hrest, if_pos rfl]
  rfl

/-- The character is a digit or a sign, which a number begins with. -/
abbrev StartsNumber (c : Char) : Prop := (c = '-' || c.isDigit) = true

theorem StartsNumber.of_isDigit {c : Char} (hc : c.isDigit = true) : StartsNumber c := by
  rw [StartsNumber, hc, Bool.or_true]

theorem StartsNumber.isSpace_eq {c : Char} (hc : StartsNumber c) : isSpace c = false := by
  rw [← Bool.not_eq_true]
  intro hspace
  simp only [isSpace, Bool.or_eq_true, decide_eq_true_eq] at hspace
  rcases hspace with ((rfl | rfl) | rfl) | rfl <;> exact absurd hc (by decide)

theorem numberOr_append (expected : String) (gap : Gap) {c : Char} (hc : StartsNumber c) (text : List Char) :
    (numberOr expected).read (gap ++ c :: text) = number.read (c :: text) := by
  rw [numberOr, read_bind_of_ok (read_next gap hc.isSpace_eq text), if_pos hc]

theorem read_natural {max n : Nat} (hmax : max ≤ maxSignificand) (hn : n ≤ max) (expected : String) (gap : Gap)
    {rest : List Char} (hrest : Parted rest) :
    (natural max expected).read (gap ++ (naturalText n ++ rest)) = .ok (n, rest) := by
  have hnumber := read_number (Nat.le_trans hn hmax) hrest
  obtain ⟨c, text, htext, hc⟩ := digitsText_cons n
  rw [htext, List.cons_append, ← numberOr_append expected gap (.of_isDigit hc)] at hnumber
  rw [naturalText, htext, List.cons_append, natural, read_bind_of_ok hnumber]
  simp only
  rw [if_pos (by omega), Int.toNat_natCast]
  rfl

/-! ### Numbers that stand in front of something -/

/-- If the reader succeeds on the text, it does the same with the text in front of something that parts it. -/
def Stable {β : Type} (reader : Reader β) (text : List Char) : Prop :=
  ∀ value rest tail, reader.read text = .ok (value, rest) → Parted tail →
    reader.read (text ++ tail) = .ok (value, rest ++ tail)

namespace Stable

variable {β γ : Type} {reader : Reader β} {text : List Char}

theorem of_error {problem : Problem} (h : reader.read text = .error problem) : Stable reader text := by
  intro value rest tail hok
  rw [h] at hok
  cases hok

theorem pure (value : β) (text : List Char) : Stable (Pure.pure value : Reader β) text := by
  intro other rest tail hok _
  obtain ⟨rfl, rfl⟩ := Prod.mk.inj (Except.ok.inj hok)
  rfl

theorem bind {next : β → Reader γ} (hfirst : Stable reader text)
    (hnext : ∀ value rest, Stable (next value) rest) :
    Stable (reader >>= next) text := by
  intro result rest tail hok htail
  cases hread : reader.read text with
  | error problem =>
      rw [read_bind_of_error hread] at hok
      cases hok
  | ok found =>
      obtain ⟨value, middle⟩ := found
      rw [read_bind_of_ok hread] at hok
      rw [read_bind_of_ok (hfirst value middle tail hread htail)]
      exact hnext value middle result rest tail hok htail

theorem peek_cons {c : Char} {next : Option Char → Reader β} (h : Stable (next (some c)) (c :: text)) :
    Stable (peek >>= next) (c :: text) := h

/-- At the end of the text it must make no difference whether the end or something that parts it is seen. -/
theorem peek_nil {next : Option Char → Reader β}
    (h : ∀ value rest, (next none).read [] = .ok (value, rest) → rest = [] ∧
      ∀ c tail, Parted (c :: tail) → (next (some c)).read (c :: tail) = .ok (value, c :: tail)) :
    Stable (peek >>= next) [] := by
  intro value rest tail hok htail
  obtain ⟨rfl, hparted⟩ := h value rest hok
  cases tail with
  | nil => exact hok
  | cons c tail => exact hparted c tail htail

theorem skip_cons {c : Char} {next : Unit → Reader β} (h : Stable (next ()) text) :
    Stable (skip >>= next) (c :: text) := h

theorem ite {condition : Prop} [Decidable condition] {yes no : Reader β} (hyes : Stable yes text)
    (hno : Stable no text) : Stable (if condition then yes else no) text := by
  split
  · exact hyes
  · exact hno

theorem fail (problem : Problem) (text : List Char) : Stable (Reader.fail problem : Reader β) text := .of_error rfl

/-- Where a digit is expected and there is none, the reader fails. -/
theorem expectDigit {next : Unit → Reader β} (h : ∀ c tail, Stable (next ()) (c :: tail)) (text : List Char) :
    Stable (Reader.expectDigit >>= next) text := by
  cases text with
  | nil => exact .of_error rfl
  | cons c text =>
      by_cases hc : c.isDigit = true
      · intro value rest tail hok htail
        rw [read_bind_of_ok (expectDigit_cons hc text)] at hok
        rw [List.cons_append, read_bind_of_ok (expectDigit_cons hc (text ++ tail))]
        exact h c text value rest tail hok htail
      · have hfail : Reader.expectDigit.read (c :: text) = .error .malformed := by
          show (if c.isDigit = true then (return ()) else Reader.fail .malformed : Reader Unit).read (c :: text) = _
          rw [if_neg hc]
          rfl
        exact .of_error (read_bind_of_error hfail next)

end Stable

theorem stable_digits (text : List Char) : Stable digits text := by
  intro value rest tail hok htail
  obtain ⟨rfl, rfl⟩ := Prod.mk.inj (Except.ok.inj hok)
  have hdigits : ∀ c ∈ text.takeWhile Char.isDigit, c.isDigit = true :=
    List.all_eq_true.mp List.all_takeWhile
  have hrest : NoDigit (text.dropWhile Char.isDigit) := by
    intro c back hback
    have hhead := List.head?_dropWhile_not Char.isDigit text
    rwa [hback] at hhead
  have hread := read_digits hdigits (hrest.append htail.noDigit)
  rwa [← List.append_assoc, List.takeWhile_append_dropWhile] at hread

theorem stable_digitsOnto (significand : Nat) (text : List Char) : Stable (digitsOnto significand) text := by
  intro value rest tail hok htail
  suffices ∀ count, (onDigits text significand count) = (value, rest) →
      onDigits (text ++ tail) significand count = (value, rest ++ tail) from
    congrArg Except.ok (this 0 (Except.ok.inj hok))
  clear hok
  induction text generalizing significand with
  | nil =>
      intro count h
      obtain ⟨rfl, rfl⟩ := Prod.mk.inj h
      cases tail with
      | nil => rfl
      | cons c tail => simp [onDigits, htail.noDigit c tail rfl]
  | cons c text ih =>
      intro count h
      rw [onDigits] at h
      rw [List.cons_append, onDigits]
      split at h
      · next htaken =>
          rw [if_pos htaken]
          exact ih _ _ h
      · next hleft =>
          obtain ⟨rfl, rfl⟩ := Prod.mk.inj h
          rw [if_neg hleft, List.cons_append]

theorem stable_whole (text : List Char) : Stable whole text := by
  refine .expectDigit (fun c tail => .peek_cons (.ite (.skip_cons ?_) ?_)) text
  · exact (stable_digits tail).bind fun _ rest => .ite (.pure _ rest) (.fail _ rest)
  · exact (stable_digitsOnto 0 _).bind fun _ rest => (stable_digits rest).bind fun _ rest => .pure _ rest

theorem stable_decimals (significand : Nat) (text : List Char) : Stable (decimals significand) text := by
  refine .expectDigit (fun c tail => (stable_digitsOnto significand _).bind fun _ rest => ?_) text
  exact (stable_digits rest).bind fun _ rest => .pure _ rest

theorem stable_exponent (text : List Char) : Stable exponent text := by
  have hmagnitude : ∀ (negative : Bool) text, Stable (do
      expectDigit
      let magnitude := (← digits).foldl (fun n c => min (n * 10 + digitValue c) maxMagnitude) 0
      return if negative then -(magnitude : Int) else magnitude) text := fun negative =>
    .expectDigit fun c tail => (stable_digits _).bind fun _ rest => .pure _ rest
  cases text with
  | nil => exact .of_error rfl
  | cons c text => exact .peek_cons (.ite (.skip_cons (hmagnitude _ text)) (hmagnitude _ (c :: text)))

theorem stable_optionalExponent (text : List Char) : Stable optionalExponent text := by
  cases text with
  | nil =>
      refine .peek_nil fun value rest hok => ?_
      obtain ⟨rfl, rfl⟩ := Prod.mk.inj (Except.ok.inj hok)
      refine ⟨rfl, fun c tail htail => ?_⟩
      have hletter : some c ≠ some 'e' ∧ some c ≠ some 'E' :=
        ⟨htail.head?_ne (by decide), htail.head?_ne (by decide)⟩
      rw [if_neg (by simpa using hletter)]
      rfl
  | cons c text => exact .peek_cons (.ite (.skip_cons (stable_exponent text)) (.pure 0 _))

theorem stable_float (negative : Bool) (significand : Nat) (exponent : Int) (text : List Char) :
    Stable (float negative significand exponent) text := by
  unfold float
  split
  · exact .pure _ text
  · exact .fail _ text

theorem stable_remainder (negative : Bool) (significand dropped : Nat) (text : List Char) :
    Stable (remainder negative significand dropped) text := by
  have hscaled : ∀ significand (places : Int) text,
      Stable (do float negative significand (places + (← optionalExponent))) text := fun _ _ text =>
    (stable_optionalExponent text).bind fun _ rest => stable_float _ _ _ rest
  have hplain : ∀ text, Stable (if dropped = 0 then return ofWhole negative significand
      else float negative significand dropped) text := fun text =>
    .ite (.pure _ text) (stable_float _ _ _ text)
  cases text with
  | nil =>
      intro value rest tail hok htail
      rw [List.nil_append, remainder_parted htail]
      exact hplain [] value rest tail hok htail
  | cons c text =>
      refine .peek_cons ?_
      split
      · exact .skip_cons ((stable_decimals significand text).bind fun _ rest => hscaled _ _ rest)
      · exact hscaled _ _ _
      · exact hscaled _ _ _
      · exact hplain _

/-- What follows a number never changes how it is read. -/
theorem stable_number (text : List Char) : Stable number text := by
  have hunsigned : ∀ negative text, Stable
      (whole >>= fun (significand, dropped) => remainder negative significand dropped) text := fun _ text =>
    (stable_whole text).bind fun _ rest => stable_remainder _ _ _ rest
  cases text with
  | nil => exact .of_error rfl
  | cons c text =>
      intro value rest tail hok htail
      rw [List.cons_append, number_cons]
      rw [number_cons] at hok
      split at hok
      · next hc =>
          rw [if_pos hc]
          exact hunsigned true text value rest tail hok htail
      · next hc =>
          rw [if_neg hc]
          exact hunsigned false (c :: text) value rest tail hok htail

end Reader

end LSystem.Json
