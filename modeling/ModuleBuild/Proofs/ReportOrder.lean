import ModuleBuild.Proofs.Texts
import ModuleBuild.Report
import Mathlib.Data.List.Pairwise

/-!
# Reports and the order of builds

A report as a JSON object lists the outcomes by module name, and those of one module in the order of
its builds (`Report.filter_sortedOutcomes`).  There is only one such list: outcomes in the order of
module names are determined by those of each module (`Report.eq_of_filter_eq`).  So the object does
not tell in which order different modules were built (`Report.toJson_by_module`), and nothing about
the order of builds at all when every module was built once (`Report.toJson_eq_of_perm`).

It does tell what became of each module (`Report.exists_status_of_toJson_eq`).
-/

namespace ModuleBuild

namespace Report

variable {r r' : Report}

/-! ### Outcomes by module name -/

/-- The outcomes of the builds of one module, in their order. -/
def outcomesOf (r : Report) (name : Text) : List Outcome :=
  r.outcomes.filter fun o => o.moduleName = name

/-- Sorting keeps the outcomes. -/
lemma perm_sortedOutcomes (r : Report) : r.sortedOutcomes.Perm r.outcomes := List.mergeSort_perm _ _

/-- Names are compared in a transitive way, as sorting needs it. -/
lemma le_trans_moduleName (a b c : Outcome) :
    decide (a.moduleName ≤ b.moduleName) = true → decide (b.moduleName ≤ c.moduleName) = true →
      decide (a.moduleName ≤ c.moduleName) = true := by
  simp only [decide_eq_true_iff]
  exact Text.le_trans

/-- Any two names are compared, as sorting needs it. -/
lemma le_total_moduleName (a b : Outcome) :
    (decide (a.moduleName ≤ b.moduleName) || decide (b.moduleName ≤ a.moduleName)) = true := by
  simp only [Bool.or_eq_true, decide_eq_true_iff]
  exact List.le_total _ _

/-- The sorted outcomes are in the order of module names. -/
lemma pairwise_sortedOutcomes (r : Report) :
    r.sortedOutcomes.Pairwise fun a b => a.moduleName ≤ b.moduleName :=
  (List.pairwise_mergeSort le_trans_moduleName le_total_moduleName r.outcomes).imp
    of_decide_eq_true

/-- Sorting keeps the outcomes of a module in their order. -/
lemma filter_sortedOutcomes (r : Report) (name : Text) :
    r.sortedOutcomes.filter (fun o => o.moduleName = name) = r.outcomesOf name := by
  -- They are in order already, so sorting does not move them past each other.
  have hordered : (r.outcomesOf name).Pairwise fun a b =>
      decide (a.moduleName ≤ b.moduleName) = true := by
    refine List.pairwise_of_forall_mem_list fun a ha b hb => ?_
    rw [of_decide_eq_true (List.mem_filter.1 ha).2, of_decide_eq_true (List.mem_filter.1 hb).2]
    exact decide_eq_true (List.le_refl name)
  have hsublist : (r.outcomesOf name).Sublist r.sortedOutcomes :=
    List.sublist_mergeSort le_trans_moduleName le_total_moduleName hordered List.filter_sublist
  have hfiltered := hsublist.filter fun o => o.moduleName = name
  rw [outcomesOf, List.filter_filter] at hfiltered
  simp only [Bool.and_self] at hfiltered
  exact (hfiltered.eq_of_length (((perm_sortedOutcomes r).filter _).length_eq).symm).symm

/-- If the first outcome of each of two lists in the order of module names is also in the other one,
the two are of the same module. -/
lemma moduleName_eq_of_mem {a b : Outcome} {l l' : List Outcome}
    (hl : (a :: l).Pairwise fun a b => a.moduleName ≤ b.moduleName)
    (hl' : (b :: l').Pairwise fun a b => a.moduleName ≤ b.moduleName)
    (ha : a ∈ b :: l') (hb : b ∈ a :: l) : a.moduleName = b.moduleName := by
  rcases List.mem_cons.1 ha with rfl | ha
  · rfl
  rcases List.mem_cons.1 hb with rfl | hb
  · rfl
  exact Text.le_antisymm ((List.pairwise_cons.1 hl).1 b hb) ((List.pairwise_cons.1 hl').1 a ha)

/-- Outcomes in the order of module names are determined by those of each module. -/
lemma eq_of_filter_eq {l l' : List Outcome}
    (hl : l.Pairwise fun a b => a.moduleName ≤ b.moduleName)
    (hl' : l'.Pairwise fun a b => a.moduleName ≤ b.moduleName)
    (h : ∀ name, (l.filter fun o => o.moduleName = name) = l'.filter fun o => o.moduleName = name) :
    l = l' := by
  induction l generalizing l' with
  | nil =>
    cases l' with
    | nil => rfl
    | cons b l' => simpa using h b.moduleName
  | cons a l ih =>
    cases l' with
    | nil => simpa using h a.moduleName
    | cons b l' =>
      have ha : a ∈ (b :: l').filter fun o => o.moduleName = a.moduleName := by
        rw [← h]
        simp
      have hb : b ∈ (a :: l).filter fun o => o.moduleName = b.moduleName := by
        rw [h]
        simp
      have hname := moduleName_eq_of_mem hl hl' (List.mem_filter.1 ha).1 (List.mem_filter.1 hb).1
      have hhead := h a.moduleName
      simp only [List.filter_cons, hname, decide_true, if_true, List.cons.injEq] at hhead
      obtain ⟨rfl, -⟩ := hhead
      refine congrArg (a :: ·) (ih hl.of_cons hl'.of_cons fun name => ?_)
      have htail := h name
      by_cases hmodule : a.moduleName = name
      · simpa [List.filter_cons, hmodule] using htail
      · simpa [List.filter_cons, hmodule] using htail

/-- Reports with the same outcomes of each module have the same outcomes by module name. -/
lemma sortedOutcomes_eq (h : ∀ name, r.outcomesOf name = r'.outcomesOf name) :
    r.sortedOutcomes = r'.sortedOutcomes :=
  eq_of_filter_eq (pairwise_sortedOutcomes r) (pairwise_sortedOutcomes r') fun name => by
    rw [filter_sortedOutcomes, filter_sortedOutcomes, h]

/-- Reports with the same outcomes of each module have the same outcomes up to their order. -/
lemma perm_of_outcomesOf_eq (h : ∀ name, r.outcomesOf name = r'.outcomesOf name) :
    r.outcomes.Perm r'.outcomes :=
  (perm_sortedOutcomes r).symm.trans (sortedOutcomes_eq h ▸ perm_sortedOutcomes r')

/-- The modules of a report and what became of them. -/
def statuses (r : Report) : List (Text × Status) :=
  r.outcomes.map fun o => (o.moduleName, o.status)

/-- The JSON object tells what became of each module. -/
theorem exists_status_of_toJson_eq (h : r.toJson = r'.toJson) {name : Text} {status : Status}
    (hstatus : (name, status) ∈ r.statuses) :
    ∃ status', (name, status') ∈ r'.statuses ∧ status'.text = status.text := by
  obtain ⟨o, ho, hpair⟩ := List.mem_map.1 hstatus
  cases hpair
  have hlists : r.sortedOutcomes.map Outcome.toJson = r'.sortedOutcomes.map Outcome.toJson := by
    simp only [toJson, Json.Value.object.injEq, List.cons.injEq, Prod.mk.injEq,
      Json.Value.array.injEq] at h
    exact h.2.2.2.1.2
  have hsorted : o ∈ r.sortedOutcomes := (List.mergeSort_perm _ _).mem_iff.2 ho
  obtain ⟨o', ho', hjson⟩ := List.mem_map.1 (hlists ▸ List.mem_map_of_mem hsorted)
  simp only [Outcome.toJson, Json.Value.object.injEq, List.cons.injEq, Prod.mk.injEq,
    Json.Value.string.injEq] at hjson
  have hmem : o' ∈ r'.outcomes := (List.mergeSort_perm _ _).mem_iff.1 ho'
  exact ⟨o'.status, List.mem_map.2 ⟨o', hmem, by rw [hjson.2.1.2]⟩, hjson.2.2.1.2⟩

/-! ### The JSON object -/

/-- Reports with the same outcomes of each module have the same JSON object. -/
lemma toJson_eq (h : ∀ name, r.outcomesOf name = r'.outcomesOf name) : r.toJson = r'.toJson := by
  have hperm := perm_of_outcomesOf_eq h
  have hbuilt : r.builtCount = r'.builtCount := hperm.countP_eq _
  have herrors : r.errors.length = r'.errors.length := (hperm.filterMap _).length_eq
  have hok : r.ok = r'.ok := by
    rw [Report.ok, Report.ok, Bool.eq_iff_iff, List.all_eq_true, List.all_eq_true]
    exact forall_congr' fun o => by rw [hperm.mem_iff]
  rw [toJson, toJson, sortedOutcomes_eq h, hbuilt, herrors, hok]

/-- Where every module was built once, the order of the builds is lost in the JSON object. -/
theorem toJson_eq_of_perm (hperm : r.outcomes.Perm r'.outcomes)
    (hmodules : r.outcomes.Pairwise fun a b => a.moduleName ≠ b.moduleName) :
    r.toJson = r'.toJson := by
  refine toJson_eq fun name => ?_
  have hsame : (r.outcomesOf name).Perm (r'.outcomesOf name) := hperm.filter _
  have hother : (r.outcomesOf name).Pairwise fun a b => a.moduleName ≠ b.moduleName :=
    hmodules.filter _
  match hof : r.outcomesOf name with
  | [] => exact (List.nil_perm.1 (hof ▸ hsame)).symm
  | [o] => exact List.singleton_perm.1 (hof ▸ hsame)
  | a :: b :: os =>
    -- There are no two outcomes of one module.
    have hmem : ∀ o ∈ a :: b :: os, o.moduleName = name := fun o ho =>
      of_decide_eq_true (List.mem_filter.1 (hof ▸ ho : o ∈ r.outcomesOf name)).2
    rw [hof, List.pairwise_cons] at hother
    exact absurd ((hmem a (by simp)).trans (hmem b (by simp)).symm) (hother.1 b (by simp))

end Report

/-- The module that an outcome is about, read off its JSON object. -/
def Json.Value.moduleName? (v : Json.Value) : Option Text :=
  match v.field? "module_name" with
  | some (.string name) => some name
  | _ => none

/-- The JSON object of an outcome names its module. -/
lemma Outcome.moduleName?_toJson (o : Outcome) : o.toJson.moduleName? = some o.moduleName := rfl

namespace Report

/-- The JSON object of a report does not depend on the order in which different modules were built,
and neither does the line for programs: reports with the same outcomes of each module, in the same
order, cannot be told apart by them.

The object lists all outcomes in ascending order of their modules' names by code point, and those of
one module in the order of its builds. -/
theorem toJson_by_module (r r' : Report) :
    ((∀ name, r.outcomesOf name = r'.outcomesOf name) →
      r.toJson = r'.toJson ∧ r.emit true = r'.emit true) ∧
    ∃ (items : List Json.Value) (names : List Text),
      r.toJson.field? "outcomes" = some (.array items) ∧
      items.Perm (r.outcomes.map Outcome.toJson) ∧
      items.map Json.Value.moduleName? = names.map some ∧ names.Pairwise (· ≤ ·) ∧
      ∀ name, (items.filter fun v => v.moduleName? = some name) =
        (r.outcomesOf name).map Outcome.toJson := by
  constructor
  · intro h
    have hjson := toJson_eq h
    exact ⟨hjson, by simp [emit, jsonLine, hjson]⟩
  · refine ⟨r.sortedOutcomes.map Outcome.toJson, r.sortedOutcomes.map Outcome.moduleName, rfl,
      (perm_sortedOutcomes r).map _, ?_, ?_, fun name => ?_⟩
    · simp only [List.map_map]
      rfl
    · exact List.pairwise_map.2 (pairwise_sortedOutcomes r)
    · rw [List.filter_map, ← filter_sortedOutcomes]
      simp only [Function.comp_def, Outcome.moduleName?_toJson, Option.some.injEq]

/-- Two modules, the first of which failed before it was built. -/
def rebuiltReport : Report where
  outcomes :=
    [⟨"Ä", .failed, [], some (.missingForeignModule "Ä" none)⟩, ⟨"Z", .built, [], none⟩,
      ⟨"Ä", .built, [.unnecessaryForeignModule "Ä" "Ä.hh"], none⟩]

/-- The same, but the other module was built first. -/
def reorderedReport : Report where
  outcomes :=
    [⟨"Z", .built, [], none⟩, ⟨"Ä", .failed, [], some (.missingForeignModule "Ä" none)⟩,
      ⟨"Ä", .built, [.unnecessaryForeignModule "Ä" "Ä.hh"], none⟩]

/-- The two have one JSON object, which lists the other module first. -/
theorem toJson_rebuiltReport :
    (∀ name, rebuiltReport.outcomesOf name = reorderedReport.outcomesOf name) ∧
      rebuiltReport.toJson = reorderedReport.toJson ∧
      rebuiltReport.toJson.field? "outcomes" =
        some (.array (reorderedReport.outcomes.map Outcome.toJson)) := by
  have hsame : ∀ name, rebuiltReport.outcomesOf name = reorderedReport.outcomesOf name := by
    intro name
    simp only [outcomesOf, rebuiltReport, reorderedReport, List.filter_cons]
    by_cases hz : (Text.ofString "Z") = name
    · subst hz
      decide
    · simp only [hz, decide_false, Bool.false_eq_true, if_false]
  have hjson := ((toJson_by_module rebuiltReport reorderedReport).1 hsame).1
  have hsorted : reorderedReport.sortedOutcomes = reorderedReport.outcomes :=
    List.mergeSort_of_pairwise (by decide)
  exact ⟨hsame, hjson, by rw [hjson, ← hsorted]; rfl⟩

end Report

end ModuleBuild
