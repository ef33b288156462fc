import LSystem.Json.Skip
import LSystem.Proofs.Json.Numbers

/-! A value of any kind and depth is passed over to its end. The reader keeps a stack of the open brackets where the
grammar nests, so the induction is on the phrase, for every stack and everything that may follow: a value
leaves the stack as it was, and elements or members take their own bracket off it. -/

namespace LSystem.Json

variable {β : Type} {text rest : List Char}

theorem IsWhole.isDigits (h : IsWhole text) : IsDigits text := by
  cases h with
  | zero => exact ⟨List.cons_ne_nil _ _, List.forall_mem_singleton.mpr rfl⟩
  | digits hdigit _ htext => exact ⟨List.cons_ne_nil _ _, List.forall_mem_cons.mpr ⟨hdigit, htext⟩⟩

theorem IsDigits.exists_cons (h : IsDigits text) : ∃ c tail, text = c :: tail ∧ c.isDigit = true := by
  obtain ⟨hne, hdigits⟩ := h
  cases text with
  | nil => exact absurd rfl hne
  | cons c tail => exact ⟨c, tail, rfl, hdigits c List.mem_cons_self⟩

namespace Reader

/-! ### Numbers -/

theorem read_skipDigits (htext : IsDigits text) (hrest : NoDigit rest) :
    skipDigits.read (text ++ rest) = .ok ((), rest) := by
  rw [skipDigits, read_bind_of_ok (read_digits htext.2 hrest), if_neg (by simpa using htext.1)]
  rfl

/-- A whole part of which some digits are taken already. -/
theorem read_skipWhole {taken : List Char} (h : IsWhole (taken ++ text)) (hrest : NoDigit rest) :
    (skipWhole taken).read (text ++ rest) = .ok ((), rest) := by
  have hdigits : ∀ c ∈ text, c.isDigit = true := fun c hc => h.isDigits.2 c (List.mem_append_right taken hc)
  rw [skipWhole, read_bind_of_ok (read_digits hdigits hrest)]
  have hgood : ((taken ++ text).isEmpty || ((taken ++ text).head? == some '0' && 1 < (taken ++ text).length)) =
      false := by
    generalize taken ++ text = whole at h
    cases h with
    | zero => rfl
    | digits _ hne _ => simp [hne]
  simp only [hgood, Bool.false_eq_true, if_false, read_pure]

theorem pastFraction {fraction : List Char} (h : IsFraction fraction) (hrest : NoDigit rest)
    (hpoint : rest.head? ≠ some '.') (after : Unit → Reader β) :
    (peek >>= fun c => if c == some '.' then skip >>= fun _ => skipDigits >>= after else after ()).read
      (fraction ++ rest) = (after ()).read rest := by
  cases h with
  | none => rw [List.nil_append, read_peek, if_neg (by simpa using hpoint)]
  | point htext =>
      show (skipDigits >>= after).read (_ ++ rest) = _
      rw [read_bind_of_ok (read_skipDigits htext hrest)]

theorem pastSign {sign : List Char} (h : sign = [] ∨ sign = ['+'] ∨ sign = ['-']) (htext : IsDigits text)
    (hrest : NoDigit rest) :
    (peek >>= fun c => if c == some '+' || c == some '-' then skip >>= fun _ => skipDigits else skipDigits).read
      (sign ++ text ++ rest) = .ok ((), rest) := by
  rcases h with rfl | rfl | rfl
  · obtain ⟨c, tail, rfl, hc⟩ := htext.exists_cons
    have hsign : c ≠ '+' ∧ c ≠ '-' := ⟨ne_of_isDigit hc rfl, ne_of_isDigit hc rfl⟩
    rw [List.nil_append, List.cons_append, read_peek, List.head?_cons, if_neg (by simpa using hsign)]
    exact read_skipDigits htext hrest
  · exact read_skipDigits htext hrest
  · exact read_skipDigits htext hrest

theorem pastExponent {exponent : List Char} (h : IsExponent exponent) (hrest : Parted rest) :
    (peek >>= fun c => if c == some 'e' || c == some 'E' then
        skip >>= fun _ => peek >>= fun c =>
          if c == some '+' || c == some '-' then skip >>= fun _ => skipDigits else skipDigits
      else return ()).read (exponent ++ rest) = .ok ((), rest) := by
  cases h with
  | none =>
      have hletter : rest.head? ≠ some 'e' ∧ rest.head? ≠ some 'E' :=
        ⟨hrest.head?_ne (by decide), hrest.head?_ne (by decide)⟩
      rw [List.nil_append, read_peek, if_neg (by simpa using hletter)]
      rfl
  | letter hletter hsign htext =>
      have hpast := pastSign hsign htext hrest.noDigit
      rcases hletter with rfl | rfl
      · exact hpast
      · exact hpast

/-- Behind a fraction there is neither a digit nor a point. -/
theorem exponent_head {exponent : List Char} (h : IsExponent exponent) (hrest : Parted rest) :
    NoDigit (exponent ++ rest) ∧ (exponent ++ rest).head? ≠ some '.' := by
  cases h with
  | none => exact ⟨hrest.noDigit, hrest.head?_ne (by decide)⟩
  | letter hletter _ _ =>
      rcases hletter with rfl | rfl
      · exact ⟨noDigit_cons (by decide) _, by simp⟩
      · exact ⟨noDigit_cons (by decide) _, by simp⟩

theorem skipNumber_eq (first : Char) :
    skipNumber first = skipWhole (if first = '-' then [] else [first]) >>= fun _ =>
      peek >>= fun c =>
        let after : Unit → Reader Unit := fun _ =>
          peek >>= fun c => if c == some 'e' || c == some 'E' then
              skip >>= fun _ => peek >>= fun c =>
                if c == some '+' || c == some '-' then skip >>= fun _ => skipDigits else skipDigits
            else return ()
        if c == some '.' then skip >>= fun _ => skipDigits >>= after else after () := rfl

theorem read_skipNumber (h : IsNumber text) (hrest : Parted rest) :
    ∃ c tail, text = c :: tail ∧ StartsNumber c ∧ (skipNumber c).read (tail ++ rest) = .ok ((), rest) := by
  obtain @⟨sign, whole, fraction, exponent, hsign, hwhole, hfraction, hexponent⟩ := h
  obtain ⟨hdigit, hpoint⟩ := exponent_head hexponent hrest
  have hnone : NoDigit (fraction ++ (exponent ++ rest)) := by
    cases hfraction with
    | none => exact hdigit
    | point _ => exact noDigit_cons (by decide) _
  have hpast : ∀ first taken digits, (if first = '-' then [] else [first]) = taken → taken ++ digits = whole →
      (skipNumber first).read (digits ++ (fraction ++ exponent) ++ rest) = .ok ((), rest) := by
    intro first taken digits htaken hall
    rw [skipNumber_eq, htaken, List.append_assoc, List.append_assoc,
      read_bind_of_ok (read_skipWhole (hall ▸ hwhole) hnone), pastFraction hfraction hdigit hpoint,
      pastExponent hexponent hrest]
  rcases hsign with rfl | rfl
  · obtain ⟨c, digits, rfl, hc⟩ := hwhole.isDigits.exists_cons
    exact ⟨c, _, rfl, .of_isDigit hc, hpast c [c] digits (if_neg (ne_of_isDigit hc rfl)) rfl⟩
  · exact ⟨'-', _, rfl, rfl, hpast '-' [] whole rfl rfl⟩

/-! ### Fronts of values -/

theorem skipsGap_front : SkipsGap front := (skipsGap_next.bind _).bind _

theorem read_front {c : Char} (hc : isSpace c = false) (text : List Char) :
    front.read (c :: text) = (frontAfter c).read text := by
  rw [front, read_bind_of_ok (read_take_cons hc text)]

theorem frontAfter_number {c : Char} (hc : StartsNumber c) :
    frontAfter c = skipNumber c >>= fun _ => return none := by
  unfold frontAfter
  split
  case h_7 => rw [if_pos hc]
  all_goals exact absurd hc (by decide)

/-! ### The stack of brackets -/

variable {brackets outer : List Bracket} {bracket : Bracket} {fresh : Bool}

/-- Passes over a value and then over the rest of those that `brackets` opened. -/
def skipFront (brackets : List Bracket) (text : List Char) : Outcome Unit :=
  match front.read text with
  | .error problem => .error problem
  | .ok (none, rest) => skipRest brackets false rest
  | .ok (some inner, rest) => skipRest (inner :: brackets) true rest

theorem skipFront_of_scalar (h : front.read text = .ok (none, rest)) :
    skipFront brackets text = skipRest brackets false rest := by
  rw [skipFront, h]

theorem skipFront_of_bracket (h : front.read text = .ok (some bracket, rest)) :
    skipFront brackets text = skipRest (bracket :: brackets) true rest := by
  rw [skipFront, h]

theorem skipValue_read (text : List Char) : skipValue.read text = skipFront [] text := by
  cases hread : front.read text with
  | error problem => rw [skipValue, read_bind_of_error hread, skipFront, hread]
  | ok found =>
      obtain ⟨inner, rest⟩ := found
      rw [skipValue, read_bind_of_ok hread]
      cases inner with
      | none =>
          rw [skipFront_of_scalar hread, skipRest.eq_def]
          rfl
      | some bracket =>
          rw [skipFront_of_bracket hread]
          rfl

theorem skipRest_cons (bracket : Bracket) (outer : List Bracket) (fresh : Bool) (text : List Char) :
    skipRest (bracket :: outer) fresh text =
      match (closes bracket fresh).read text with
      | .error problem => .error problem
      | .ok (true, rest) => skipRest outer false rest
      | .ok (false, rest) => skipFront (bracket :: outer) rest := by
  rw [skipRest.eq_def]
  simp only
  split
  · next hread => rw [hread]
  · next hread => rw [hread]
  · next hread =>
      rw [hread]
      simp only [skipFront]
      split
      · next hfront => rw [hfront]
      · next hfront => rw [hfront]
      · next hfront => rw [hfront]

theorem skipRest_open (h : (closes bracket fresh).read text = .ok (false, rest)) :
    skipRest (bracket :: outer) fresh text = skipFront (bracket :: outer) rest := by
  rw [skipRest_cons, h]

/-! ### Between two values -/

theorem skipsGap_closes : SkipsGap (closes bracket fresh) := skipsGap_next.bind _

theorem skipRest_append (gap : Gap) (text : List Char) :
    skipRest (bracket :: outer) fresh (gap ++ text) = skipRest (bracket :: outer) fresh text := by
  rw [skipRest_cons, skipRest_cons, skipsGap_closes]

theorem skipFront_append (gap : Gap) (text : List Char) :
    skipFront brackets (gap ++ text) = skipFront brackets text := by
  rw [skipFront, skipFront, skipsGap_front]

/-- The bracket is closed. -/
theorem skipRest_closing (bracket : Bracket) (gap : Gap) (rest : List Char) :
    skipRest (bracket :: outer) fresh (gap ++ bracket.closing :: rest) = skipRest outer false rest := by
  have hspace : isSpace bracket.closing = false := by cases bracket <;> rfl
  rw [skipRest_cons, closes, read_bind_of_ok (read_next gap hspace rest), if_pos rfl]
  rfl

/-- What stands in front of a further value: a comma, unless it is the first. -/
def lead : Bool → List Char
  | true => []
  | false => [',']

theorem skipRest_element {c : Char} (hc : isSpace c = false) (hne : c ≠ ']') (before : Gap) (tail : List Char) :
    skipRest (.array :: outer) fresh (lead fresh ++ (before ++ c :: tail)) =
      skipFront (.array :: outer) (c :: tail) := by
  cases fresh with
  | true =>
      apply skipRest_open
      have hread := read_next before hc tail
      show (next >>= fun c => if c = ']' then skip >>= fun _ => return true else return false).read _ = _
      rw [lead, List.nil_append, read_bind_of_ok hread, if_neg hne]
      rfl
  | false =>
      rw [← skipFront_append before]
      apply skipRest_open
      show (punctuation ',' >>= fun _ => return false).read (',' :: (before ++ c :: tail)) = _
      rw [read_bind_of_ok (read_punctuation_cons (by decide) _)]
      rfl

theorem read_skipKey {key : List Char} (hkey : IsChars key) (before behind : Gap) (text : List Char) :
    skipKey.read (before ++ '"' :: (key ++ '"' :: (behind ++ ':' :: text))) = .ok ((), text) := by
  rw [skipKey, read_bind_of_ok (read_punctuation before (by decide) _), read_bind_of_ok (read_skipChars hkey _)]
  exact read_punctuation behind (by decide) text

theorem skipRest_member {key : List Char} (hkey : IsChars key) (before behind : Gap) (text : List Char) :
    skipRest (.object :: outer) fresh
      (lead fresh ++ (before ++ '"' :: (key ++ '"' :: (behind ++ ':' :: text)))) =
        skipFront (.object :: outer) text := by
  apply skipRest_open
  cases fresh with
  | true =>
      have hread : next.read (before ++ '"' :: (key ++ '"' :: (behind ++ ':' :: text))) = .ok ('"', _) :=
        read_next before (by decide) _
      show (next >>= fun c => if c = '\x7d' then skip >>= fun _ => return true
        else skipKey >>= fun _ => return false).read _ = _
      rw [lead, List.nil_append, read_bind_of_ok hread, if_neg (by decide)]
      have hkeyed := read_skipKey hkey .none behind text
      exact read_bind_of_ok hkeyed _
  | false =>
      have hkeyed := read_skipKey hkey before behind text
      show (punctuation ',' >>= fun _ => skipKey >>= fun _ => return false).read (',' :: (before ++ _)) = _
      rw [read_bind_of_ok (read_punctuation_cons (by decide) _), read_bind_of_ok hkeyed]
      rfl

/-! ### Whole values -/

/-- No value begins with a blank or with the bracket that would close an empty array. -/
theorem value_head {text : List Char} (h : Phrase.value.Is text) :
    ∃ c tail, text = c :: tail ∧ isSpace c = false ∧ c ≠ ']' := by
  generalize hphrase : Phrase.value = phrase at h
  cases h with
  | null => exact ⟨'n', _, rfl, rfl, by decide⟩
  | boolean b =>
      cases b with
      | true => exact ⟨'t', _, rfl, rfl, by decide⟩
      | false => exact ⟨'f', _, rfl, rfl, by decide⟩
  | number htext =>
      obtain ⟨c, tail, rfl, hc, -⟩ := read_skipNumber htext parted_nil
      refine ⟨c, tail, rfl, hc.isSpace_eq, ?_⟩
      rintro rfl
      exact absurd hc (by decide)
  | string htext => exact ⟨'"', _, rfl, rfl, by decide⟩
  | emptyArray gap => exact ⟨'[', _, rfl, rfl, by decide⟩
  | array htext => exact ⟨'[', _, rfl, rfl, by decide⟩
  | emptyObject gap => exact ⟨'\x7b', _, rfl, rfl, by decide⟩
  | object htext => exact ⟨'\x7b', _, rfl, rfl, by decide⟩
  | element => cases hphrase
  | elements => cases hphrase
  | member => cases hphrase
  | members => cases hphrase

/-- What passing over a phrase comes to, whatever the brackets around it and whatever follows. -/
def Passes : Phrase → List Char → Prop
  | .value, text => ∀ brackets rest, Parted rest →
      skipFront brackets (text ++ rest) = skipRest brackets false rest
  | .elements, text => ∀ outer fresh rest,
      skipRest (.array :: outer) fresh (lead fresh ++ (text ++ ']' :: rest)) = skipRest outer false rest
  | .members, text => ∀ outer fresh rest,
      skipRest (.object :: outer) fresh (lead fresh ++ (text ++ '\x7d' :: rest)) = skipRest outer false rest

/-- By induction on the phrase: inside a bracket the stack is the one outside with this bracket on top. -/
theorem passes {phrase : Phrase} {text : List Char} (h : phrase.Is text) : Passes phrase text := by
  induction h with
  | null =>
      intro brackets rest _
      exact skipFront_of_scalar rfl
  | boolean b =>
      intro brackets rest _
      cases b with
      | true => exact skipFront_of_scalar rfl
      | false => exact skipFront_of_scalar rfl
  | number htext =>
      intro brackets rest hrest
      obtain ⟨c, tail, rfl, hc, hread⟩ := read_skipNumber htext hrest
      apply skipFront_of_scalar
      rw [List.cons_append, read_front hc.isSpace_eq, frontAfter_number hc, read_bind_of_ok hread]
      rfl
  | string htext =>
      intro brackets rest _
      apply skipFront_of_scalar
      rw [List.cons_append, List.append_assoc, read_front (by decide), frontAfter]
      exact read_bind_of_ok (read_skipChars htext rest) _
  | emptyArray gap =>
      intro brackets rest _
      rw [List.cons_append, List.append_assoc]
      exact (skipFront_of_bracket rfl).trans (skipRest_closing .array gap rest)
  | array htext ih =>
      intro brackets rest _
      rw [List.cons_append, List.append_assoc]
      exact (skipFront_of_bracket rfl).trans (ih brackets true rest)
  | emptyObject gap =>
      intro brackets rest _
      rw [List.cons_append, List.append_assoc]
      exact (skipFront_of_bracket rfl).trans (skipRest_closing .object gap rest)
  | object htext ih =>
      intro brackets rest _
      rw [List.cons_append, List.append_assoc]
      exact (skipFront_of_bracket rfl).trans (ih brackets true rest)
  | element before after htext ih =>
      intro outer fresh rest
      obtain ⟨c, tail, rfl, hc, hne⟩ := value_head htext
      have hparted : Parted (after ++ ']' :: rest) := (parted_cons rest (by decide)).append after
      have hvalue := ih (.array :: outer) _ hparted
      simp only [List.append_assoc, List.cons_append] at hvalue ⊢
      rw [skipRest_element hc hne, hvalue]
      exact skipRest_closing .array after rest
  | @elements before after text more htext hmore ih ihmore =>
      intro outer fresh rest
      obtain ⟨c, tail, rfl, hc, hne⟩ := value_head htext
      have hparted : Parted (after ++ ',' :: (more ++ ']' :: rest)) := (parted_cons _ (by decide)).append after
      have hvalue := ih (.array :: outer) _ hparted
      simp only [List.append_assoc, List.cons_append] at hvalue ⊢
      rw [skipRest_element hc hne, hvalue, skipRest_append]
      exact ihmore outer false rest
  | member before behind inside after hkey htext ih =>
      intro outer fresh rest
      have hparted : Parted (after ++ '\x7d' :: rest) := (parted_cons rest (by decide)).append after
      simp only [List.append_assoc, List.cons_append]
      rw [skipRest_member hkey, skipFront_append, ih _ _ hparted]
      exact skipRest_closing .object after rest
  | @members before behind inside after key text more hkey htext hmore ih ihmore =>
      intro outer fresh rest
      have hparted : Parted (after ++ ',' :: (more ++ '\x7d' :: rest)) := (parted_cons _ (by decide)).append after
      simp only [List.append_assoc, List.cons_append]
      rw [skipRest_member hkey, skipFront_append, ih _ _ hparted, skipRest_append]
      exact ihmore outer false rest

/-- A value of any kind and depth is passed over, whatever it is and whatever follows. -/
theorem read_skipValue {text : List Char} (h : Phrase.value.Is text) (gap : Gap) {rest : List Char}
    (hrest : Parted rest) : skipValue.read (gap ++ (text ++ rest)) = .ok ((), rest) := by
  rw [skipValue_read, skipFront_append, passes h [] rest hrest, skipRest.eq_def]

end Reader

end LSystem.Json
