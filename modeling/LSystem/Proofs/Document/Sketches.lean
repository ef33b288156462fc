import LSystem.Document.Studio
import LSystem.Proofs.Document.Rules
import LSystem.Proofs.Grammar.Rulebook

/-! Sketches come back from their documents, except those with an angle or a length that is no number: these are
written as `null`, and the document is then refused. -/

namespace LSystem

open Json

namespace Sketch

variable {sketch : Sketch Float}

theorem angle_mem :
    Field.number "angle" Sketch.angle (fun x sketch => { sketch with angle := x }) ∈ record.fields := by
  simp [record]

theorem length_mem :
    Field.number "step_length" Sketch.length (fun x sketch => { sketch with length := x }) ∈ record.fields := by
  simp [record]

/-- The first three members say everything but the angle and the length. -/
theorem loads_grammar (hgenerations : sketch.generations ≤ Field.max32)
    {members : List Member} {names : List String} {final : Sketch Float}
    (hmore : record.Loads { sketch with angle := 0, length := 0 } members names final) :
    record.Loads record.blank ((record.fields.take 3).map (Field.member sketch) ++ members)
      ((record.fields.take 3).map Field.name ++ names) final := by
  refine .written (by simp [record]) (Field.carries_of (roundTrips_string _ sketch.start)) ?_
  refine .written (by simp [record]) (Field.carries_of (Rulebook.roundTrips sketch.rules)) ?_
  refine .written (by simp [record])
    (Field.carries_of (roundTrips_natural (by decide) hgenerations _)).optional ?_
  exact hmore

theorem roundTrips (hgenerations : sketch.generations ≤ Field.max32) (hangle : Legible sketch.angle)
    (hlength : Legible sketch.length) :
    RoundTrips record.reader record.writer sketch := by
  refine Record.roundTrips (by decide) (loads_grammar hgenerations ?_)
  refine .written angle_mem (Field.carries_of hangle.roundTrips) ?_
  refine .written length_mem (Field.carries_of hlength.roundTrips) ?_
  exact .nil

/-- An angle or a length that is no number spoils the document. -/
theorem ofText_null (hgenerations : sketch.generations ≤ Field.max32)
    (hangle : sketch.angle.isFinite = true → Legible sketch.angle)
    (h : sketch.angle.isFinite = false ∨ sketch.length.isFinite = false) :
    ofText (record.text sketch) = .error (.document (.mismatch (.wrongType .null "f64"))) := by
  let grammar := (record.fields.take 3).map (Field.member sketch)
  let angle := Field.number "angle" Sketch.angle fun x sketch => { sketch with angle := x }
  let length := Field.number "step_length" Sketch.length fun x sketch => { sketch with length := x }
  have hread : record.reader.read (record.text sketch) = .error (.mismatch (.wrongType .null "f64")) := by
    rw [Record.text, Record.writer_eq]
    by_cases hfinite : sketch.angle.isFinite = true
    · have hlength : sketch.length.isFinite = false := h.resolve_left (by simp [hfinite])
      have hloads := loads_grammar hgenerations
        (.written angle_mem (Field.carries_of (hangle hfinite).roundTrips) .nil)
      have hsplit : record.fields.map (Field.member sketch) =
          (grammar ++ [angle.member sketch]) ++ length.member sketch :: [] := rfl
      rw [hsplit]
      exact Record.read_null hloads (by decide) length_mem (by decide) hlength _ .none .none []
    · have hloads := loads_grammar hgenerations .nil
      have hsplit : record.fields.map (Field.member sketch) =
          (grammar ++ []) ++ angle.member sketch :: [length.member sketch] := rfl
      rw [hsplit]
      exact Record.read_null hloads (by decide) angle_mem (by decide) (by simpa using hfinite) _ .none .none []
  rw [ofText, Reader.document, hread]
  rfl

end Sketch

/-- **Grammars come back from their documents.** Every rulebook does, and so does every sketch with an angle and a
length that are legible; if one of these is no number, the document is refused. -/
theorem documents_read_back :
    (∀ book : Rulebook, Rulebook.ofText book.text = .ok book) ∧
    ∀ sketch : Sketch Float, sketch.generations ≤ Field.max32 →
      (sketch.angle.isFinite = true → Legible sketch.angle) →
      (sketch.length.isFinite = true → Legible sketch.length) →
      (sketch.angle.isFinite = true → sketch.length.isFinite = true →
        Sketch.ofText (Sketch.record.text sketch) = .ok sketch) ∧
      (sketch.angle.isFinite = false ∨ sketch.length.isFinite = false →
        Sketch.ofText (Sketch.record.text sketch) = .error (.document (.mismatch (.wrongType .null "f64")))) := by
  refine ⟨Rulebook.ofText_text, fun sketch hgenerations hangle hlength => ⟨?_, ?_⟩⟩
  · intro hfinite hfinite'
    have hread := (Sketch.roundTrips hgenerations (hangle hfinite) (hlength hfinite')).document
    rw [Sketch.ofText, Record.text, hread]
    rfl
  · exact Sketch.ofText_null hgenerations hangle

/-- A quote, a backslash, a control character and letters outside the basic plane, in keys and in successors. -/
def awkwardRules : Rulebook :=
  .collect [('"', ⟨['\\', '"', '/'], true, false, false⟩), ('\\', ⟨[], true, true, true⟩),
    ('\x01', ⟨['\x00', '\n', '\x7f'], false, true, false⟩), ('𝔽', ⟨['é', '𝔽', '+'], true, false, true⟩)]

theorem documents_read_back_of_awkward :
    let sketch : Sketch Float := ⟨['"', '𝔽'], awkwardRules, 4294967295, 22.5, -0.0⟩
    Rulebook.ofText awkwardRules.text = .ok awkwardRules ∧ Sketch.ofText (Sketch.record.text sketch) = .ok sketch ∧
      Sketch.ofText (Sketch.record.text { sketch with length := 0 / 0 }) =
        .error (.document (.mismatch (.wrongType .null "f64"))) := by
  have hangle : Legible 22.5 := by decide +kernel
  have hlength : Legible (-0.0) := by decide +kernel
  obtain ⟨hbook, hsketch⟩ := documents_read_back
  refine ⟨hbook awkwardRules, ?_, ?_⟩
  · exact (hsketch ⟨_, _, _, 22.5, -0.0⟩ (by decide) (fun _ => hangle) fun _ => hlength).1
      (by decide +kernel) (by decide +kernel)
  · exact (hsketch ⟨_, _, _, 22.5, 0 / 0⟩ (by decide) (fun _ => hangle) (by decide +kernel)).2
      (.inr (by decide +kernel))

end LSystem
