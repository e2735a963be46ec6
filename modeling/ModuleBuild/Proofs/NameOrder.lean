import ModuleBuild.Proofs.NameGrammar
import ModuleBuild.Proofs.ReportOrder

/-!
# The order of module names

Module names are ordered by their segments (`ModuleName.sort`), but reports list them by their
texts, in which the dots count as well.  A dot is less than everything that can stand in a segment
except for the apostrophe (`dot_lt_of_isSegmentRest`).  So the orders differ only where a dot meets
an apostrophe: where a segment of one name is that of the other with an apostrophe behind it, and
the other name goes on with further segments (`ModuleName.IsPrimedIn`).  As a name, `A.B` is less
than `A'`, and as a text it is greater.

These are exactly the pairs that the two orders do not agree on (`ModuleName.isPrimedIn_iff`).
Sorted names are in the order of their texts exactly if no two of them are such a pair
(`ModuleName.pairwise_text_sort_iff`), and it is then that a report lists them as they are sorted
(`Report.map_sortedOutcomes_eq_iff`).
-/

namespace ModuleBuild

/-! ### Dots and segments -/

/-- A dot is less than what can stand in a segment, but for the apostrophe. -/
lemma dot_lt_of_isSegmentRest {c : CodePoint} (hc : isSegmentRest c = true)
    (hne : c ≠ .scalar '\'') : .scalar '.' < c := by
  cases c with
  | surrogate n => cases hc
  | scalar c =>
    change '.'.toNat < c.toNat
    have hfrom (d : Char) (hd : '.'.toNat < d.toNat) (hdc : d ≤ c) : '.'.toNat < c.toNat :=
      Nat.lt_of_lt_of_le hd hdc
    rcases (isSegmentRest_scalar c).1 hc with h | h | h | rfl | rfl
    · exact hfrom 'A' (by decide) h.1
    · exact hfrom 'a' (by decide) h.1
    · exact hfrom '0' (by decide) h.1
    · decide
    · exact absurd rfl hne

/-- What follows the start of a segment may stand in one. -/
lemma isSegmentRest_of_append {s more : Text} {c : CodePoint} (hne : s ≠ [])
    (h : isSegment (s ++ c :: more) = true) : isSegmentRest c = true := by
  obtain ⟨d, s, rfl⟩ := List.exists_cons_of_ne_nil hne
  rw [List.cons_append, isSegment, List.all_append, List.all_cons] at h
  simp only [Bool.and_eq_true] at h
  exact h.2.2.1

/-- Segments that others follow, each before a dot. -/
def beforeDots (segments : List Text) : Text := segments.flatMap (· ++ [.scalar '.'])

/-- Segments that follow others, each behind a dot. -/
def behindDots (segments : List Text) : Text := segments.flatMap ([.scalar '.'] ++ ·)

/-- If there are segments behind dots, a dot comes first. -/
lemma exists_behindDots {segments : List Text} (hne : segments ≠ []) :
    ∃ t, behindDots segments = .scalar '.' :: t := by
  obtain ⟨s, segments, rfl⟩ := List.exists_cons_of_ne_nil hne
  exact ⟨s ++ behindDots segments, List.flatMap_cons⟩

/-- A segment that is less than another one makes the text less, whatever follows, unless a dot
behind it meets an apostrophe. -/
lemma append_behindDots_lt {s s' : Text} (hs : isSegment s = true) (hs' : isSegment s' = true)
    (hlt : s < s') (rest others : List Text) :
    (rest ≠ [] ∧ ∃ more, s' = s ++ .scalar '\'' :: more) ∨
      s ++ behindDots rest < s' ++ behindDots others := by
  rcases exists_fork_of_lt hlt with ⟨c, more, rfl⟩ | ⟨start, c, more, c', more', hc, rfl, rfl⟩
  · by_cases hrest : rest = []
    · -- There is no dot: the text is where the other one starts.
      right
      rw [hrest, behindDots, List.flatMap_nil, List.append_nil, List.append_assoc, List.cons_append]
      apply Text.lt_append_cons
    · by_cases hprime : c = .scalar '\''
      · exact .inl ⟨hrest, more, by rw [hprime]⟩
      · right
        have hne : s ≠ [] := by
          rintro rfl
          cases hs
        have hdot := dot_lt_of_isSegmentRest (isSegmentRest_of_append hne hs') hprime
        obtain ⟨t, ht⟩ := exists_behindDots hrest
        rw [ht, List.append_assoc, List.cons_append]
        apply Text.append_cons_lt s hdot
  · right
    rw [List.append_assoc, List.append_assoc, List.cons_append, List.cons_append]
    apply Text.append_cons_lt start hc

namespace ModuleName

variable {a b m : ModuleName}

/-- The text of a name around one of its segments. -/
lemma text_of_segments {common : List Text} {s : Text} {rest : List Text}
    (h : m.segments = common ++ s :: rest) :
    m.text = beforeDots common ++ (s ++ behindDots rest) := by
  have htext : m.text = Text.join [.scalar '.'] m.segments := rfl
  rw [htext, h, Text.join_append_cons, Text.join_cons, beforeDots, behindDots]

/-- Different names are in order in one way only. -/
lemma gt_iff_not_lt (hne : a ≠ b) : b < a ↔ ¬a < b := lt_iff_not_lt_of_ne (mt ext_segments hne)

/-! ### Where a dot meets an apostrophe -/

/-- Whether, where the segments of two names first differ, the second name has the first one's
segment with an apostrophe behind it, and maybe more, while the first name goes on with further
segments. -/
def IsPrimedIn (a b : ModuleName) : Prop :=
  ∃ (common : List Text) (s : Text) (rest : List Text) (more : Text) (others : List Text),
    rest ≠ [] ∧ a.segments = common ++ s :: rest ∧
      b.segments = common ++ (s ++ .scalar '\'' :: more) :: others

/-- By its segments, the name without the apostrophe is less. -/
lemma lt_of_isPrimedIn (h : a.IsPrimedIn b) : a < b := by
  obtain ⟨common, s, rest, more, others, -, ha, hb⟩ := h
  change a.segments < b.segments
  rw [ha, hb]
  apply List.append_left_lt
  exact List.cons_lt_cons_iff.2 (.inl (Text.lt_append_cons s _ more))

/-- By its text, it is greater, since it has the dot. -/
lemma text_lt_of_isPrimedIn (h : a.IsPrimedIn b) : b.text < a.text := by
  obtain ⟨common, s, rest, more, others, hrest, ha, hb⟩ := h
  obtain ⟨t, ht⟩ := exists_behindDots hrest
  rw [text_of_segments ha, text_of_segments hb, ht, List.append_assoc s, List.cons_append]
  apply List.append_left_lt
  exact Text.append_cons_lt s (by decide) _ _

/-- Names that are in order by their segments are so by their texts, too, unless a dot meets an
apostrophe. -/
lemma isPrimedIn_or_text_lt (h : a < b) : a.IsPrimedIn b ∨ a.text < b.text := by
  rcases exists_fork_of_lt h with ⟨s, rest, hb⟩ | ⟨common, s, rest, s', others, hlt, ha, hb⟩
  · -- All segments of `a` are segments of `b`, so the text of `a` is where that of `b` starts.
    right
    obtain ⟨init, last, ha⟩ : ∃ init last, a.segments = init ++ [last] :=
      ⟨_, _, (List.dropLast_concat_getLast a.segments_ne_nil).symm⟩
    rw [ha, List.append_assoc, List.singleton_append] at hb
    obtain ⟨t, ht⟩ := exists_behindDots (List.cons_ne_nil s rest)
    rw [text_of_segments ha, text_of_segments hb, ht, behindDots, List.flatMap_nil,
      List.append_nil]
    apply List.append_left_lt
    exact Text.lt_append_cons last _ t
  · have hs : isSegment s = true := a.isSegment_of_mem s (by simp [ha])
    have hs' : isSegment s' = true := b.isSegment_of_mem s' (by simp [hb])
    rcases append_behindDots_lt hs hs' hlt rest others with ⟨hrest, more, rfl⟩ | htext
    · exact .inl ⟨common, s, rest, more, others, hrest, ha, hb⟩
    · rw [text_of_segments ha, text_of_segments hb]
      exact .inr (List.append_left_lt htext)

/-- A dot meets an apostrophe exactly in the pairs of names whose texts are in the other order. -/
lemma isPrimedIn_iff : a.IsPrimedIn b ↔ a < b ∧ b.text < a.text := by
  refine ⟨fun h => ⟨lt_of_isPrimedIn h, text_lt_of_isPrimedIn h⟩, fun ⟨hlt, htext⟩ => ?_⟩
  exact (isPrimedIn_or_text_lt hlt).resolve_right (List.lt_asymm htext)

instance (a b : ModuleName) : Decidable (a.IsPrimedIn b) := decidable_of_iff _ isPrimedIn_iff.symm

-- No segments follow, so there is no dot that the apostrophe could meet.
example : ¬IsPrimedIn ⟨["Data", "Map"], by decide, by decide⟩
    ⟨["Data", "Map'"], by decide, by decide⟩ := by decide

/-- No dot meets an apostrophe where there is none. -/
lemma not_isPrimedIn_of_notMem (h : .scalar '\'' ∉ b.text) : ¬a.IsPrimedIn b := by
  rintro ⟨common, s, rest, more, others, -, -, hb⟩
  rw [text_of_segments hb] at h
  simp at h

/-! ### Sorted names -/

/-- Sorting keeps the names. -/
lemma perm_sort (names : List ModuleName) : (sort names).Perm names := List.mergeSort_perm _ _

/-- The sorted names are in the order of their segments. -/
lemma pairwise_sort (names : List ModuleName) : (sort names).Pairwise fun a b => ¬b < a := by
  refine (List.pairwise_mergeSort (fun a b c => ?_) (fun a b => ?_) names).imp of_decide_eq_true
  · simp only [decide_eq_true_iff]
    exact list_le_trans
  · simp only [Bool.or_eq_true, decide_eq_true_iff]
    exact List.le_total _ _

/-- They are in the order of their texts, too, exactly if no dot in one of them meets an apostrophe
in another. -/
lemma pairwise_text_sort_iff {names : List ModuleName} :
    ((sort names).Pairwise fun a b => a.text ≤ b.text) ↔
      ∀ a ∈ names, ∀ b ∈ names, ¬a.IsPrimedIn b := by
  have hmem {m : ModuleName} : m ∈ sort names ↔ m ∈ names := (perm_sort names).mem_iff
  constructor
  · intro htexts a ha b hb
    have : Std.Symm fun a b : ModuleName => ¬a.IsPrimedIn b ∧ ¬b.IsPrimedIn a :=
      ⟨fun _ _ => And.symm⟩
    have hnone : (sort names).Pairwise fun a b => ¬a.IsPrimedIn b ∧ ¬b.IsPrimedIn a :=
      ((pairwise_sort names).and htexts).imp fun ⟨hsegments, htext⟩ =>
        ⟨fun h => htext (text_lt_of_isPrimedIn h), fun h => hsegments (lt_of_isPrimedIn h)⟩
    have hself (m : ModuleName) : ¬m.IsPrimedIn m := fun h => List.lt_irrefl _ (lt_of_isPrimedIn h)
    exact (hnone.forall_of_forall (fun m _ => ⟨hself m, hself m⟩) (hmem.2 ha) (hmem.2 hb)).1
  · intro hnone
    refine (pairwise_sort names).imp_of_mem fun {a b} ha hb hle htext => ?_
    have hne : b ≠ a := by
      rintro rfl
      exact List.lt_irrefl _ htext
    exact hnone a (hmem.1 ha) b (hmem.1 hb) (isPrimedIn_iff.2 ⟨(gt_iff_not_lt hne).2 hle, htext⟩)

end ModuleName

/-! ### Reports -/

open ModuleName

/-- A report lists names as they are sorted, exactly if that is the order of their texts. -/
lemma Report.map_sortedOutcomes_eq_iff {r : Report} {names : List ModuleName}
    (hnames : r.outcomes.map Outcome.moduleName = names.map text) :
    r.sortedOutcomes.map Outcome.moduleName = (sort names).map text ↔
      (sort names).Pairwise fun a b => a.text ≤ b.text := by
  have hreport : (r.sortedOutcomes.map Outcome.moduleName).Pairwise (· ≤ ·) :=
    List.pairwise_map.2 r.pairwise_sortedOutcomes
  have hperm : (r.sortedOutcomes.map Outcome.moduleName).Perm ((sort names).map text) :=
    (r.perm_sortedOutcomes.map _).trans (hnames ▸ (perm_sort names).symm.map _)
  rw [← List.pairwise_map]
  exact ⟨fun h => h ▸ hreport, fun h =>
    hperm.eq_of_pairwise (fun _ _ _ _ => Text.le_antisymm) hreport h⟩

namespace ModuleName

/-- Different names are in the order of their texts exactly if they are in that of their segments,
unless a dot of one of them meets an apostrophe of the other; then the two orders are opposite.  So
the orders agree on names without apostrophes.

A report lists its modules in the order of their texts.  It is the order in which their names are
sorted, exactly if no two of them are such an exception. -/
theorem text_lt_iff_lt :
    (∀ a b : ModuleName, a ≠ b →
      ((a.text < b.text ↔ a < b) ↔ ¬(a.IsPrimedIn b ∨ b.IsPrimedIn a)) ∧
        (a.IsPrimedIn b ∨ b.IsPrimedIn a → (a.text < b.text ↔ b < a))) ∧
    (∀ a b : ModuleName, .scalar '\'' ∉ a.text → .scalar '\'' ∉ b.text →
      (a.text < b.text ↔ a < b)) ∧
    ∀ (r : Report) (names : List ModuleName),
      r.outcomes.map Outcome.moduleName = names.map text →
        (r.sortedOutcomes.map Outcome.moduleName = (sort names).map text ↔
          ∀ a ∈ names, ∀ b ∈ names, ¬a.IsPrimedIn b) := by
  refine ⟨fun a b hne => ?_, fun a b ha hb => ⟨fun htext => ?_, fun hlt => ?_⟩,
    fun r names hnames => ?_⟩
  · have htext : b.text < a.text ↔ ¬a.text < b.text :=
      lt_iff_not_lt_of_ne (text_injective.ne hne)
    rw [isPrimedIn_iff, isPrimedIn_iff, gt_iff_not_lt hne, htext]
    by_cases hlt : a < b <;> by_cases hlt' : a.text < b.text <;> simp [hlt, hlt']
  · have hne : a ≠ b := by
      rintro rfl
      exact List.lt_irrefl _ htext
    by_contra hnot
    rcases isPrimedIn_or_text_lt ((gt_iff_not_lt hne).2 hnot) with hprimed | htext'
    · exact not_isPrimedIn_of_notMem ha hprimed
    · exact List.lt_asymm htext htext'
  · exact (isPrimedIn_or_text_lt hlt).resolve_left (not_isPrimedIn_of_notMem hb)
  · rw [Report.map_sortedOutcomes_eq_iff hnames, pairwise_text_sort_iff]

/-- A name with a dot behind a segment. -/
def lazyMap : ModuleName := ⟨["Data", "Map", "Lazy"], by decide, by decide⟩

/-- A name with an apostrophe behind that segment. -/
def primedMap : ModuleName := ⟨["Data", "Map'"], by decide, by decide⟩

/-- A name with a digit behind it. -/
def numberedMap : ModuleName := ⟨["Data", "Map2"], by decide, by decide⟩

/-- The three of them were built in this order. -/
def mapReport : Report where
  outcomes := [lazyMap, primedMap, numberedMap].map fun m => ⟨m.text, .built, [], none⟩

/-- The three are in the order of their segments, but a report lists them in another order, for by
their texts the second one is less than the first. -/
theorem text_lt_iff_lt_mapReport :
    (lazyMap ≠ primedMap ∧ lazyMap.IsPrimedIn primedMap ∧
      ¬(lazyMap.text < primedMap.text ↔ lazyMap < primedMap) ∧
      (lazyMap.text < primedMap.text ↔ primedMap < lazyMap)) ∧
    (.scalar '\'' ∉ lazyMap.text ∧ .scalar '\'' ∉ numberedMap.text ∧
      (lazyMap.text < numberedMap.text ↔ lazyMap < numberedMap)) ∧
    mapReport.outcomes.map Outcome.moduleName = [lazyMap, primedMap, numberedMap].map text ∧
    sort [lazyMap, primedMap, numberedMap] = [lazyMap, primedMap, numberedMap] ∧
    mapReport.sortedOutcomes.map Outcome.moduleName ≠
      (sort [lazyMap, primedMap, numberedMap]).map text := by
  have hne : lazyMap ≠ primedMap := by decide
  have hprimed : lazyMap.IsPrimedIn primedMap :=
    ⟨["Data"], "Map", ["Lazy"], [], [], by decide, rfl, rfl⟩
  have hnames : mapReport.outcomes.map Outcome.moduleName =
      [lazyMap, primedMap, numberedMap].map text := rfl
  have hlazy : .scalar '\'' ∉ lazyMap.text := by decide
  have hnumbered : .scalar '\'' ∉ numberedMap.text := by decide
  obtain ⟨hagree, hopposite⟩ := text_lt_iff_lt.1 lazyMap primedMap hne
  refine ⟨⟨hne, hprimed, fun h => hagree.1 h (.inl hprimed), hopposite (.inl hprimed)⟩,
    ⟨hlazy, hnumbered, text_lt_iff_lt.2.1 lazyMap numberedMap hlazy hnumbered⟩, hnames,
    List.mergeSort_of_pairwise (by decide), fun hsame => ?_⟩
  have hnone := (text_lt_iff_lt.2.2 mapReport _ hnames).1 hsame
  exact hnone lazyMap (by simp) primedMap (by simp) hprimed

end ModuleName

end ModuleBuild
