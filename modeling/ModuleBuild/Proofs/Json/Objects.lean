import ModuleBuild.Json.Reader
import Mathlib.Tactic.Lemma

/-!
# Objects in the order of their closing braces

A value has objects in it, each of them after those that are inside it (`Value.objects`).  When the
reader takes a text for a document, the objects that it has closed on its way are exactly those in
the document, and in this order (`closed_read`).  So a condition that is checked where an object is
closed holds for the objects at every depth.

The invariant is that the closed objects are those in what was read so far: in the open arrays and
objects, the outermost first, and in the value or the members that the reader has at hand.
-/

namespace ModuleBuild.Json

mutual

/-- The objects in a value, in the order of their closing braces. -/
def Value.objects : Value → List Members
  | .null => []
  | .bool _ => []
  | .number _ => []
  | .string _ => []
  | .array items => itemObjects items
  | .object members => memberObjects members ++ [members]

/-- The objects in the items of an array. -/
def itemObjects : List Value → List Members
  | [] => []
  | v :: vs => v.objects ++ itemObjects vs

/-- The objects in the values of the members of an object. -/
def memberObjects : Members → List Members
  | [] => []
  | (_, v) :: ms => v.objects ++ memberObjects ms

end

/-- The objects in the items of two arrays. -/
lemma itemObjects_append (vs vs' : List Value) :
    itemObjects (vs ++ vs') = itemObjects vs ++ itemObjects vs' := by
  induction vs with
  | nil => rfl
  | cons v vs ih => rw [List.cons_append, itemObjects, itemObjects, ih, List.append_assoc]

/-- The objects in the items of an array are those in one of the items. -/
lemma mem_itemObjects {vs : List Value} {o : Members} :
    o ∈ itemObjects vs ↔ ∃ v ∈ vs, o ∈ v.objects := by
  induction vs with
  | nil => simp [itemObjects]
  | cons v vs ih => simp [itemObjects, ih]

/-- The objects in the members of two objects. -/
lemma memberObjects_append (ms ms' : Members) :
    memberObjects (ms ++ ms') = memberObjects ms ++ memberObjects ms' := by
  induction ms with
  | nil => rfl
  | cons m ms ih => rw [List.cons_append, memberObjects, memberObjects, ih, List.append_assoc]

/-- The objects in the members of an object are those in the value of one of them. -/
lemma mem_memberObjects {ms : Members} {o : Members} :
    o ∈ memberObjects ms ↔ ∃ m ∈ ms, o ∈ m.2.objects := by
  induction ms with
  | nil => simp [memberObjects]
  | cons m ms ih => simp [memberObjects, ih]

/-! ### Words and numbers -/

/-- There is no object in a word. -/
lemma objects_of_word? {s rest : List Char} {token : Token} (h : word? s = some (token, rest)) :
    ∃ v, token = .atom v ∧ v.objects = [] := by
  obtain ⟨⟨w, v⟩, hw, hrest⟩ := List.exists_of_findSome?_eq_some h
  obtain ⟨rest', -, htoken⟩ := Option.map_eq_some_iff.1 hrest
  obtain ⟨rfl, -⟩ := Prod.mk.inj htoken
  have hobjects : ∀ x ∈ words, x.2.objects = [] := by decide
  exact ⟨v, rfl, hobjects _ hw⟩

/-- There is no object in a number. -/
lemma objects_of_unsignedNumber? {negative : Bool} {s rest : List Char} {v : Value}
    (h : unsignedNumber? negative s = some (.atom v, rest)) : v.objects = [] := by
  obtain ⟨x, -, h⟩ := Option.bind_eq_some_iff.1 h
  dsimp only at h
  split at h
  · split at h
    · cases h
    · cases h
      rfl
  · cases h
    rfl

/-- There is no object in a value that is a single token. -/
lemma objects_of_nextToken? {s rest : List Char} {v : Value}
    (h : nextToken? s = some (.atom v, rest)) : v.objects = [] := by
  unfold nextToken? at h
  split at h
  case h_8 r =>
    unfold stringToken at h
    split at h <;> cases h
  case h_9 =>
    split at h
    · next found hword =>
      obtain rfl := Option.some.inj h
      obtain ⟨v', hv, hobjects⟩ := objects_of_word? hword
      obtain rfl := Token.atom.inj hv
      exact hobjects
    · unfold number? at h
      split at h <;> exact objects_of_unsignedNumber? h
  all_goals cases h

/-! ### The reader -/

/-- The objects in what an open array or object holds so far. -/
def Frame.objects : Frame → List Members
  | item items => itemObjects items.reverse
  | member members _ => memberObjects members.reverse

/-- The objects in what was read last. -/
def Expecting.objects : Expecting → List Members
  | value => []
  | firstItem => []
  | firstName => []
  | nextName members => memberObjects members.reverse
  | colon members _ => memberObjects members.reverse
  | afterValue v => v.objects

/-- The objects in all that was read so far. -/
def objectsSoFar (expecting : Expecting) (frames : List Frame) : List Members :=
  (frames.reverse.flatMap Frame.objects) ++ expecting.objects

/-- The reader has closed the objects in what it has read. -/
lemma closed_readFrom {s : List Char} {expecting : Expecting} {frames : List Frame}
    {closed : List Members} {v : Value} (hclosed : closed.reverse = objectsSoFar expecting frames)
    (h : (readFrom s expecting frames closed).result = .ok v) :
    (readFrom s expecting frames closed).closed = v.objects := by
  fun_induction readFrom s expecting frames closed
  -- The reader goes on.
  case case1 ih | case2 ih | case3 ih | case8 ih | case9 ih | case10 ih | case11 ih | case14 ih
    | case17 ih | case21 ih | case22 ih | case24 ih =>
    apply ih _ h
    simpa [objectsSoFar, Expecting.objects, Frame.objects, Value.objects, itemObjects,
      itemObjects_append, memberObjects, memberObjects_append] using hclosed
  case case4 hatom ih =>
    apply ih _ h
    simpa [objectsSoFar, Expecting.objects, objects_of_nextToken? hatom] using hclosed
  case case25 members ih =>
    apply ih _ h
    rw [List.reverse_cons, hclosed]
    simp [members, objectsSoFar, Expecting.objects, Frame.objects, Value.objects, memberObjects,
      memberObjects_append]
  -- It has read all.
  case case19 =>
    cases h
    exact hclosed
  -- It has met a fault.
  all_goals cases h

/-- The closed objects are those in the document, in the same order. -/
theorem closed_read {s : List Char} {v : Value} (h : (read s).result = .ok v) :
    (read s).closed = v.objects := by
  unfold read at h ⊢
  split at h
  · cases h
  · exact closed_readFrom rfl h

end ModuleBuild.Json
