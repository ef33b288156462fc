import LSystem.Proofs.Json.Numbers
import Mathlib.Control.Monad.Basic

/-! Floats in documents. How a float comes back from its text is a matter of rounding and is left open here:
`Legible` says that it does when the text is a document of its own, and then it does so wherever the text
stands. What is no number is written as `null`, which is refused where a number is wanted. -/

namespace LSystem.Json

/-- The float is read back from its text. -/
def Legible (x : Float) : Prop := Reader.document Reader.real (floatText x) = .ok x

instance (x : Float) : Decidable (Legible x) := inferInstanceAs (Decidable (_ = _))

/-! ### Texts of floats -/

section

variable {P : Char → Prop} {digits : List Char}

theorem forall_mem_positional {tail : List Char} (hdigits : ∀ c ∈ digits, P c) (hzero : P '0') (hpoint : P '.')
    (htail : ∀ c ∈ tail, P c) (place : Int) : ∀ c ∈ Decimal.positional digits place tail, P c := by
  have hzeros : ∀ n, ∀ c ∈ Decimal.zeros n, P c := by
    intro n c hc
    rwa [List.eq_of_mem_replicate hc]
  unfold Decimal.positional
  split
  · simp only [List.mem_append]
    rintro c ((hc | hc) | hc)
    exacts [hdigits c hc, hzeros _ c hc, htail c hc]
  · split
    · simp only [List.mem_append, List.mem_cons]
      rintro c (hc | rfl | hc)
      exacts [hdigits c (List.mem_of_mem_take hc), hpoint, hdigits c (List.mem_of_mem_drop hc)]
    · simp only [List.cons_append, List.mem_cons, List.mem_append]
      rintro c (rfl | rfl | hc | hc)
      exacts [hzero, hpoint, hzeros _ c hc, hdigits c hc]

theorem forall_mem_positiveNumber (hdigits : ∀ c ∈ digits, P c) (hP : ∀ c, c.isDigit = true → P c)
    (hpoint : P '.') (hletter : P 'e') (hplus : P '+') (hminus : P '-') (place : Int) :
    ∀ c ∈ positiveNumber digits place, P c := by
  unfold positiveNumber
  split
  · refine forall_mem_positional hdigits (hP _ (by decide)) hpoint ?_ place
    simp only [List.mem_cons, List.not_mem_nil, or_false]
    rintro c (rfl | rfl)
    exacts [hpoint, hP _ (by decide)]
  · simp only [List.mem_append, List.mem_cons]
    rintro c ((hc | hc) | rfl | rfl | hc)
    · exact hdigits c (List.mem_of_mem_take hc)
    · split at hc
      · cases hc
      · rcases List.mem_cons.mp hc with rfl | hc
        exacts [hpoint, hdigits c (List.mem_of_mem_drop hc)]
    · exact hletter
    · split
      exacts [hminus, hplus]
    · exact hP c (Reader.isDigit_of_mem_digitsText hc)

end

theorem isSpace_of_isDigit {c : Char} (hc : c.isDigit = true) : isSpace c = false :=
  (Reader.StartsNumber.of_isDigit hc).isSpace_eq

theorem isSpace_of_mem_floatText {x : Float} : ∀ c ∈ floatText x, isSpace c = false := by
  have hsign : ∀ c ∈ (if x.toBits.toNat < Nat.pow 2 63 then [] else ['-']), isSpace c = false := by
    split
    · exact List.forall_mem_nil _
    · exact List.forall_mem_singleton.mpr rfl
  unfold floatText
  split
  · simp only [Decimal.Layout.finite]
    split
    · exact List.forall_mem_append.mpr ⟨hsign, by simp [numberLayout, isSpace]⟩
    · have hdigits : ∀ n, ∀ c ∈ Decimal.digitsText n, isSpace c = false :=
        fun _ _ hc => isSpace_of_isDigit (Reader.isDigit_of_mem_digitsText hc)
      exact List.forall_mem_append.mpr ⟨hsign, forall_mem_positiveNumber (hdigits _)
        (fun _ => isSpace_of_isDigit) rfl rfl rfl rfl _⟩
  · simp [nullText, isSpace]

namespace Reader

/-- The reader succeeds on no text. -/
def Fails {β : Type} (reader : Reader β) : Prop := ∀ text value rest, reader.read text ≠ .ok (value, rest)

theorem Fails.bind {β γ : Type} {reader : Reader β} {next : β → Reader γ} (h : ∀ value, Fails (next value)) :
    Fails (reader >>= next) := by
  intro text value rest hok
  cases hread : reader.read text with
  | error problem =>
      rw [read_bind_of_error hread] at hok
      cases hok
  | ok found =>
      obtain ⟨middle, left⟩ := found
      rw [read_bind_of_ok hread] at hok
      exact h _ _ value rest hok

theorem fails_unexpected {β : Type} (expected : String) : Fails (unexpected expected : Reader β) := by
  have hwrong : ∀ found, Fails (mismatch (.wrongType found expected) : Reader β) := fun _ _ _ _ h => nomatch h
  refine .bind fun c => ?_
  simp only
  split_ifs
  · exact .bind fun _ => .bind fun _ => hwrong .null
  · exact .bind fun _ => .bind fun _ => hwrong (.boolean true)
  · exact .bind fun _ => .bind fun _ => hwrong (.boolean false)
  · exact .bind fun _ => hwrong _
  · exact .bind fun _ => .bind fun _ => hwrong _
  · exact hwrong .sequence
  · exact hwrong .map
  · exact fun _ _ _ h => nomatch h

theorem skipsGap_real : SkipsGap real := (skipsGap_next.bind _).bind _

theorem Fails.stable {β : Type} {reader : Reader β} (h : Fails reader) (text : List Char) : Stable reader text :=
  fun value rest _ hok _ => absurd hok (h text value rest)

theorem Stable.next {β : Type} {after : Char → Reader β} {c : Char} {text : List Char} (hc : isSpace c = false)
    (h : Stable (after c) (c :: text)) : Stable (next >>= after) (c :: text) := by
  intro value rest tail hok htail
  rw [read_bind_of_ok (read_next_cons hc text)] at hok
  rw [List.cons_append, read_bind_of_ok (read_next_cons hc (text ++ tail))]
  exact h value rest tail hok htail

theorem stable_real {text : List Char} (htext : ∀ c ∈ text, isSpace c = false) : Stable real text := by
  suffices Stable (numberOr "f64") text from this.bind fun _ rest => .pure _ rest
  cases text with
  | nil => exact .of_error rfl
  | cons c text =>
      exact .next (htext c List.mem_cons_self)
        (.ite (stable_number _) ((fails_unexpected _).stable _))

theorem real_null (gap : Gap) (rest : List Char) :
    real.read (gap ++ (nullText ++ rest)) = .error (.mismatch (.wrongType .null "f64")) := by
  rw [skipsGap_real]
  rfl

end Reader

/-- A float that is legible on its own is legible wherever it stands. -/
theorem Legible.read {x : Float} (h : Legible x) (gap : Gap) {rest : List Char} (hrest : Parted rest) :
    Reader.real.read (gap ++ (floatText x ++ rest)) = .ok (x, rest) := by
  rw [Reader.skipsGap_real]
  rw [Legible, Reader.document] at h
  split at h
  · next value left hread =>
      split at h
      · next hblank =>
          obtain rfl := Except.ok.inj h
          -- The reader takes the whole text: what it leaves would be blanks, and there are none.
          have hleft : left = [] := by
            have hsuffix := Reader.real.suffix hread
            cases left with
            | nil => rfl
            | cons c left =>
                have hc : isSpace c = false := isSpace_of_mem_floatText c (hsuffix.subset List.mem_cons_self)
                rw [Reader.skipBlanks_cons hc] at hblank
                cases hblank
          subst hleft
          exact Reader.stable_real isSpace_of_mem_floatText value [] rest hread hrest
      · cases h
  · cases h

end LSystem.Json
