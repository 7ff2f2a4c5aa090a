import Latency.Proofs.Frame.RoundTrip
import Latency.Proofs.Pipeline.Interleaving
/-!
# Bodies that are no objects

Of a stream of whole frames the session takes the objects in front of the first body `null`, and
then the end.  A body of any other kind changes nothing; `null` hides every frame behind it, since
the reader takes it for the end of the stream.
-/

namespace Latency.Frame

def objects (pieces : List Piece) : List Json :=
  (pieces.filterMap Piece.value?).filter Json.isObject

def Piece.goesOn (p : Piece) : Bool :=
  p.value?.all Frame.goesOn

def untilNull (pieces : List Piece) : List Piece :=
  pieces.takeWhile Piece.goesOn

theorem filterMap_untilNull (pieces : List Piece) :
    (untilNull pieces).filterMap Piece.value? =
      (pieces.filterMap Piece.value?).takeWhile Frame.goesOn := by
  induction pieces with
  | nil => rfl
  | cons p pieces ih =>
    cases hvalue : p.value? with
    | none =>
      have hp : p.goesOn = true := by rw [Piece.goesOn, hvalue]; rfl
      rw [untilNull, List.takeWhile_cons_of_pos hp, List.filterMap_cons_none hvalue,
        List.filterMap_cons_none hvalue]
      exact ih
    | some m =>
      have hp : p.goesOn = Frame.goesOn m := by rw [Piece.goesOn, hvalue]; rfl
      rw [untilNull, List.filterMap_cons_some hvalue]
      cases hm : Frame.goesOn m with
      | true =>
        rw [List.takeWhile_cons_of_pos (hp.trans hm), List.takeWhile_cons_of_pos hm,
          List.filterMap_cons_some hvalue]
        exact congrArg (m :: ·) ih
      | false =>
        have hends : ¬ p.goesOn = true := by simp [hp, hm]
        rw [List.takeWhile_cons_of_neg hends, List.takeWhile_cons_of_neg (by simp [hm])]
        rfl

theorem untilNull_eq_self {pieces : List Piece} (h : ∀ p ∈ pieces, p.goesOn = true) :
    untilNull pieces = pieces :=
  List.takeWhile_eq_self_iff.2 h

theorem objects_append (ps qs : List Piece) : objects (ps ++ qs) = objects ps ++ objects qs := by
  rw [objects, List.filterMap_append, List.filter_append]
  rfl

theorem objects_cons_of_none {p : Piece} (h : p.value?.any Json.isObject = false)
    (pieces : List Piece) : objects (p :: pieces) = objects pieces := by
  cases hvalue : p.value? with
  | none => rw [objects, List.filterMap_cons_none hvalue, objects]
  | some m =>
    have hm : ¬ m.isObject = true := by simpa [hvalue] using h
    rw [objects, List.filterMap_cons_some hvalue, List.filter_cons_of_neg hm, objects]

/-- Noise and a body that is neither an object nor `null` may be left out. -/
theorem objects_untilNull_insert (front back : List Piece) {p : Piece} (hgoesOn : p.goesOn = true)
    (hobject : p.value?.any Json.isObject = false) :
    objects (untilNull (front ++ p :: back)) = objects (untilNull (front ++ back)) := by
  rw [untilNull, untilNull, List.takeWhile_append, List.takeWhile_append]
  split
  · rw [List.takeWhile_cons_of_pos hgoesOn, objects_append, objects_append,
      objects_cons_of_none hobject]
  · rfl

end Latency.Frame

namespace Latency.Link

open Latency.Frame (Piece objects untilNull)

theorem delivery_pieces (limit : Option Nat) {pieces : List Piece}
    (hfits : ∀ p ∈ pieces, p.Fits limit) :
    delivery limit (pieces.flatMap Piece.octets) =
      (objects (untilNull pieces)).map Item.message ++ [.ended] := by
  rw [delivery, Frame.messages_flatMap_octets limit pieces hfits, objects,
    Frame.filterMap_untilNull]

/-- **Bodies that are no objects.**  However a stream of frames is cut into chunks and whatever the
order of the steps, the session takes the objects in front of the first body `null`, and then the
end.  Neither noise nor a body of any other kind makes a difference to that, and where no body is
`null` these are all the objects. -/
theorem steps_take_objects (limit : Option Nat) (capacity : Nat) {pieces : List Piece}
    (hfits : ∀ p ∈ pieces, p.Fits limit) {chunks : List (List UInt8)}
    (hchunks : chunks.flatten = pieces.flatMap Piece.octets) {l : Link}
    (h : Steps (start limit capacity chunks) l) :
    l.taken <+: (objects (untilNull pieces)).map Item.message ++ [.ended] ∧
      (∃ l', Steps l l' ∧ l'.taken = (objects (untilNull pieces)).map Item.message ++ [.ended]) ∧
      (∀ front p back, pieces = front ++ p :: back → p.goesOn = true →
        p.value?.any Json.isObject = false →
          objects (untilNull pieces) = objects (untilNull (front ++ back))) ∧
      ((∀ p ∈ pieces, p.goesOn = true) → objects (untilNull pieces) = objects pieces) := by
  have hv := valid_of_steps h
  have hdelivery := delivery_pieces limit hfits
  rw [← hchunks] at hdelivery
  rw [← hdelivery]
  refine ⟨taken_prefix_whole hv, exists_complete hv, ?_, ?_⟩
  · rintro front p back rfl hgoesOn hobject
    exact Frame.objects_untilNull_insert front back hgoesOn hobject
  · intro hgoesOn
    rw [Frame.untilNull_eq_self hgoesOn]

theorem plain_empty : Json.Plain (.obj []) :=
  .obj (by decide) (by simp)

theorem plain_one : Json.Plain (.arr [.int 1]) :=
  .arr (by simpa using .int (by decide))

def mixedFrames : List Piece :=
  [.framed (Frame.framed plain_one), .framed (Frame.framed plain_empty),
    .framed (Frame.framed .null), .framed (Frame.framed plain_empty)]

theorem steps_take_objects_mixedFrames :
    ∃ l, Steps (start (some bodyLimit) 1 [mixedFrames.flatMap Piece.octets]) l ∧
      l.taken = [.message (.obj []), .ended] := by
  have hfits : ∀ p ∈ mixedFrames, p.Fits (some bodyLimit) := by decide +kernel
  obtain ⟨-, ⟨l, hsteps, htaken⟩, -, -⟩ := steps_take_objects (some bodyLimit) 1 hfits
    (List.append_nil _) (.refl (a := start (some bodyLimit) 1 [mixedFrames.flatMap Piece.octets]))
  refine ⟨l, hsteps, htaken.trans ?_⟩
  rw [objects, Frame.filterMap_untilNull, mixedFrames]
  simp only [List.filterMap_cons, Frame.value?_framed]
  rfl

def nullInFront : List UInt8 :=
  Frame.encode .null ++ Frame.encode (.obj [])

theorem read_nullInFront :
    Frame.read (some bodyLimit) nullInFront = (.value .null, Frame.encode (.obj [])) :=
  Frame.read_framed .null (by decide +kernel) (Frame.encode (.obj []))

theorem delivery_nullInFront : delivery (some bodyLimit) nullInFront = [.ended] := by
  have hnone : Frame.messages (some bodyLimit) nullInFront = [] := by
    apply Frame.messages_of_no_value
    intro m rest hread
    rw [read_nullInFront] at hread
    exact (Frame.Outcome.value.inj (Prod.mk.inj hread).1).symm
  rw [delivery, hnone]
  rfl

/-- The session is told the end in front of an object, and never gets the object. -/
theorem steps_end_before_object :
    ∃ l, Steps (start (some bodyLimit) 1 [nullInFront]) l ∧ l.taken = [.ended] ∧
      ∀ l', Steps l l' → l'.taken = [.ended] := by
  have hwhole : delivery (some bodyLimit) [nullInFront].flatten = [.ended] := by
    rw [List.flatten_singleton, delivery_nullInFront]
  have hstart := start_valid (some bodyLimit) 1 [nullInFront]
  rw [Pipeline.items_eq_messages, ← delivery] at hstart
  obtain ⟨l, hsteps, htaken⟩ := exists_complete hstart
  rw [hwhole] at htaken
  refine ⟨l, hsteps, htaken, fun l' hlater => ?_⟩
  have hprefix := taken_prefix_whole (valid_of_steps (hsteps.trans hlater))
  have hkept := steps_taken hlater
  rw [hwhole] at hprefix
  rw [htaken] at hkept
  exact hprefix.eq_of_length_le hkept.length_le

end Latency.Link
