import ModuleBuild.Proofs.WritePlaces
import ModuleBuild.Proofs.WrittenTexts

/-!
# What the build of a module leaves alone

However a build ends, it touches no other files than those of its module and the support files
(`Project.worked_build`).  So the source and the interface of any other module stay as they are, and
so does everything outside the output directory.

Attempting a build does to the tree what building does.
-/

namespace ModuleBuild

/-! ### Attempts -/

/-- An attempt that does not end in a defect leaves tree and clock of the action behind; if its
result is one of success, the action ended well. -/
lemma attempt_eq_ok {α : Type} {x : Build α} {w w' : World} {r : Result α}
    (h : attempt x w = .ok r w') :
    w'.tree = (worldAfter (x w.entering)).tree ∧ w'.clock = (worldAfter (x w.entering)).clock ∧
      (r.ok = true → ∃ a w'', x w.entering = .ok a w'') := by
  rw [attempt_apply] at h
  rcases hx : x w.entering with ⟨a, w₁⟩ | ⟨e | d, w₁⟩
  · rw [hx] at h
    cases h
    exact ⟨rfl, rfl, fun _ => ⟨a, w₁, rfl⟩⟩
  · rw [hx] at h
    cases h
    exact ⟨rfl, rfl, fun hok => by cases hok⟩
  · rw [hx] at h
    cases h

/-! ### The frame of a build -/

/-- What the build of a module made of a tree: it grew, and no files changed but those of the module
and the support files. -/
structure Tree.Worked (o : Options) (m : ModuleName) (now : Time) (t t' : Tree) : Prop where
  /-- Nothing was removed. -/
  grows : t.Grows now t'
  /-- No link was made. -/
  isLinkFree : t'.IsLinkFree
  /-- Elsewhere files are as before. -/
  files_eq : ∀ q, (∀ kind, ((o.artifacts m).place kind).location ≠ q) →
    (∀ x ∈ o.supportPlan, x.path.location ≠ q) → t'.files q = t.files q

namespace Project

variable {β γ ε : Type} {p : Project β γ ε} {job : Job β γ}

/-- A build writes the files of its module and support files. -/
lemma path_of_mem_plannedWrites {w : World} {x : PlannedWrite} (hx : x ∈ p.plannedWrites job w) :
    (∃ kind, x.path = (p.options.artifacts job.module.name).place kind) ∨
      x ∈ p.options.supportPlan := by
  unfold plannedWrites at hx
  split at hx
  · cases hx
  · rw [writesFrom, List.mem_append, List.mem_append] at hx
    rcases hx with hx | hx | hx
    · obtain ⟨kind, -, hpath⟩ := exists_kind_of_mem_moduleWrites hx
      exact .inl ⟨kind, hpath⟩
    · right
      rw [Options.supportWrites_eq] at hx
      split at hx
      · cases hx
      · exact hx
    · obtain ⟨kind, -, hpath⟩ := exists_kind_of_mem_foreignWrites hx
      exact .inl ⟨kind, hpath⟩

variable (p job) in
/-- A build touches no other files than those of its module and the support files. -/
theorem worked_build {w : World} (hfree : w.tree.IsLinkFree) :
    w.tree.Worked p.options job.module.name w.clock (worldAfter (p.build job w)).tree := by
  obtain ⟨k, -, hwrote, -⟩ := p.follows_build job w hfree
  refine ⟨(Performs.build p job).grows w, hwrote.isLinkFree, fun q hplace hsupport => ?_⟩
  rw [hwrote.files_eq]
  refine Files.overridden_of_notMem _ _ fun x hx => ?_
  rcases path_of_mem_plannedWrites (List.mem_of_mem_take hx) with ⟨kind, hpath⟩ | hx
  · rw [hpath]
    exact hplace kind
  · exact hsupport x hx

/-- An attempted build touches no other files than those of its module and the support files. -/
lemma worked_attempt {w w' : World} {r : Result Unit} (hfree : w.tree.IsLinkFree)
    (h : attempt (p.build job) w = .ok r w') :
    w'.clock = w.clock ∧ w.tree.Worked p.options job.module.name w.clock w'.tree := by
  obtain ⟨htree, hclock, -⟩ := attempt_eq_ok h
  rw [htree, hclock]
  have hworked := p.worked_build job (w := w.entering) hfree
  exact ⟨(Performs.build p job w.entering).1, hworked⟩

end Project

namespace Tree.Worked

variable {o : Options} (hnames : o.HasDefaultNames) {m : ModuleName} {now : Time} {t t' : Tree}

include hnames

/-- Files outside the output directory are left alone. -/
lemma files_outside (h : t.Worked o m now t') {q : Location} (hq : ¬o.outputDir.location <+: q) :
    t'.files q = t.files q := by
  refine h.files_eq q (fun kind hkind => hq ?_) (fun x hx hlocation => hq ?_)
  · rw [← hkind, Options.location_place hnames]
    exact List.prefix_append _ _
  · obtain ⟨dirs, name, -, hsupport⟩ := Options.location_supportPlan hnames hx
    rw [← hlocation, hsupport]
    exact List.prefix_append _ _

/-- The source and the interface of another module are left alone. -/
lemma files_other (h : t.Worked o m now t') {m' : ModuleName} (hne : m ≠ m') {kind : ArtifactKind}
    (hkind : kind = .source ∨ kind = .externs) :
    t'.files ((o.artifacts m').place kind).location =
      t.files ((o.artifacts m').place kind).location := by
  refine h.files_eq _ (fun kind' hlocation => hne ?_) fun x hx => ?_
  · exact (Options.location_place_injective hnames hlocation).1
  · exact Options.supportPlan_ne_place hnames hx m' hkind

end Tree.Worked

end ModuleBuild
