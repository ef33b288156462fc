import LSystem.Proofs.Plane.Gathering
import LSystem.Scalar.Binary
import Mathlib.Data.List.FinRange

/-! How a list of segments is shared out among its strands, whatever the comparisons of the scalars say. A place is
more than the segment that stands there, since a list may have one segment twice and an undefined one is not even
equal to itself. Every place belongs to one strand. The strand starts from the first of its places and takes the
segments at the others one at a time, and when it has come to its end it absorbs none of those at the places of
later strands. -/

namespace LSystem

open Relation

variable {α : Type} [Scalar α]

/-- The places of a list that one strand has: the one that it starts from and those, all of them behind it, whose
segments it takes, and what the segment that it starts from has then become. -/
structure Share (segments : List (Segment α)) where
  first : Fin segments.length
  taken : List (Fin segments.length)
  segment : Segment α
  first_lt : ∀ place ∈ taken, first < place
  takes : ReflTransGen Strand.Takes (segments.get first, taken.map segments.get) (segment, [])

namespace Share

variable {segments : List (Segment α)}

def places (share : Share segments) : List (Fin segments.length) := share.first :: share.taken

/-- A share starts in front of another one, and what comes out for it absorbs no segment of the other. -/
def Precedes (share later : Share segments) : Prop :=
  share.first < later.first ∧
    ∀ place ∈ later.places, share.segment.absorbs (segments.get place) = false

/-- Places in increasing order are shared out among the strands of the segments that stand there. -/
theorem exists_shares {places : List (Fin segments.length)} (hplaces : places.Pairwise (· < ·)) :
    ∃ shares : List (Share segments),
      shares.map Share.segment = (strands (places.map segments.get)).map (·.segment) ∧
      (shares.flatMap Share.places).Perm places ∧ shares.Pairwise Precedes := by
  generalize hpending : places.map segments.get = pending
  fun_induction strands pending generalizing places with
  | case1 =>
      obtain rfl := List.map_eq_nil_iff.1 hpending
      exact ⟨[], rfl, .refl _, List.Pairwise.nil⟩
  | case2 s pending _ ih =>
      obtain ⟨first, behind, rfl, rfl, rfl⟩ := List.map_eq_cons_iff.1 hpending
      have hrun := Strand.gather_takes (Strand.single (segments.get first)) (behind.map segments.get)
      have hstuck := Strand.gather_stuck (Strand.single (segments.get first)) (behind.map segments.get)
      obtain ⟨taken, rest, hleft, hrest, hperm, htakes⟩ := Strand.exists_places segments.get hrun
      obtain ⟨hfirst, hbehind⟩ := List.pairwise_cons.1 hplaces
      obtain ⟨shares, hsegments, hshares, hprecede⟩ := ih (hbehind.sublist hrest) hleft
      have htaken : ∀ place ∈ taken, first < place := fun place hplace =>
        hfirst place (hperm.subset (List.mem_append_left rest hplace))
      refine ⟨⟨first, taken, _, htaken, htakes⟩ :: shares, congrArg _ hsegments, ?_, ?_⟩
      · rw [List.flatMap_cons]
        exact ((hshares.append_left taken).trans hperm).cons first
      · refine List.pairwise_cons.2 ⟨fun later hlater => ?_, hprecede⟩
        have hplace : ∀ place ∈ later.places, place ∈ rest := fun place hmem =>
          hshares.subset (List.mem_flatMap.2 ⟨later, hlater, hmem⟩)
        refine ⟨hfirst _ (hrest.subset (hplace _ List.mem_cons_self)), fun place hmem => ?_⟩
        apply hstuck
        rw [← hleft]
        exact List.mem_map_of_mem (hplace place hmem)

end Share

/-- **Every segment goes into one strand.** The places of a list that is short enough to be fused are shared out, one
share for each segment that comes out and in the order of their first places. What comes out for a share has
taken the segments of the share one at a time, and it absorbs no segment of a later share. -/
theorem fuse_shares {limit : Nat} {segments : List (Segment α)} (hlimit : segments.length ≤ limit) :
    ∃ shares : List (Share segments), fuse limit segments = shares.map Share.segment ∧
      (shares.flatMap Share.places).Perm (List.finRange segments.length) ∧ shares.Pairwise Share.Precedes := by
  obtain ⟨shares, hsegments, hplaces, hprecede⟩ :=
    Share.exists_shares (List.pairwise_lt_finRange segments.length)
  refine ⟨shares, ?_, hplaces, hprecede⟩
  rw [fuse, if_neg (Nat.not_lt.2 hlimit), hsegments, List.map_get_finRange]

/-- A segment that the list has twice is dropped once, one with undefined ends is not. -/
theorem fuse_shares_of_undefined :
    let level : Segment Float := ⟨⟨0, 0⟩, ⟨1, 0⟩⟩
    let undefined : Segment Float := ⟨⟨0 / 0, 0⟩, ⟨0 / 0, 1⟩⟩
    let segments := [undefined, level, undefined, level]
    segments.length ≤ 4 ∧ ∃ shares : List (Share segments), shares.length = 3 ∧
      fuse 4 segments = shares.map Share.segment ∧
      (shares.flatMap Share.places).Perm (List.finRange segments.length) ∧ shares.Pairwise Share.Precedes := by
  intro level undefined segments
  have hlimit : segments.length ≤ 4 := le_refl 4
  obtain ⟨shares, hfuse, hplaces, hprecede⟩ := fuse_shares hlimit
  have hlength : shares.length = 3 := by
    rw [← List.length_map, ← hfuse]
    decide +kernel
  exact ⟨hlimit, shares, hlength, hfuse, hplaces, hprecede⟩

end LSystem
