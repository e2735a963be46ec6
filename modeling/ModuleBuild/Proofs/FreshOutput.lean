import ModuleBuild.Proofs.OracleAgreement

/-!
# Output that is no older is fresh

Two roundings stand between the time of a file and its timestamp, but they keep the order of times.
So of two files the timestamps are ordered as the times are, on both sides of 1970, and a module
whose source and interface were modified when its input was, or later, is not built again
(`fresh_of_times_le`).
-/

namespace ModuleBuild

/-- A regular file that was modified at a time in the calendar. -/
structure Tree.IsDated (t : Tree) (path : Path) (time : Time) : Prop where
  /-- The path leads to the file. -/
  exists_stat : ∃ content, t.stat path = .ok (.file content time)
  /-- Its time is in the calendar. -/
  inCalendar : time.timestamp.InCalendar

/-- The file has a timestamp, that of its time. -/
lemma Tree.IsDated.timestamp? {t : Tree} {path : Path} {time : Time} (h : t.IsDated path time) :
    t.timestamp? path = .ok (some time.timestamp) := by
  obtain ⟨content, hstat⟩ := h.exists_stat
  rw [timestamp?_of_file hstat, Time.stamp, if_pos h.inCalendar]
  rfl

section Fresh

variable {o : Options} {inputs : Inputs} {m : ModuleName} {t : Tree} {path : Path}
  {input source externs : Time}

/-- The output is up to date if both of its parts are no older than the input. -/
lemma upToDateIn_of_le (hpath : inputs.lookup m = .ok (.path path)) (hinput : t.IsDated path input)
    (hsource : t.IsDated (o.artifacts m).source source)
    (hexterns : t.IsDated (o.artifacts m).externs externs) (hle : input ≤ source)
    (hle' : input ≤ externs) : upToDateIn o inputs m t = .ok (some true) := by
  have houtput : outputTimestampIn o m t =
      .ok (some (source.timestamp.earlier externs.timestamp)) := by
    rw [outputTimestampIn, hsource.timestamp?, hexterns.timestamp?]
    rfl
  have hfresh : input.timestamp ≤ source.timestamp.earlier externs.timestamp :=
    Timestamp.le_earlier_iff.2 ⟨Time.timestamp_le hinput.inCalendar hsource.inCalendar hle,
      Time.timestamp_le hinput.inCalendar hexterns.inCalendar hle'⟩
  rw [upToDateIn, inputStateIn_of_path hpath, hinput.timestamp?, houtput]
  exact congrArg (fun b => Except.ok (some b)) (decide_eq_true hfresh)

/-- A module is not stale if its output is up to date. -/
lemma staleIn_eq_false (h : upToDateIn o inputs m t = .ok (some true)) :
    staleIn o inputs m t = .ok false := by
  have hpath : ∀ policy, inputs.lookup m ≠ .ok (.policy policy) := by
    intro policy hpolicy
    rw [upToDateIn_eq_none_iff.2 ⟨policy, hpolicy⟩] at h
    cases h
  rw [staleIn_of_upToDateIn hpath, h]
  rfl

end Fresh

/-- Timestamps are ordered as the times of the files are.  So if the input, the source and the
interface of a module are regular files, and neither of the latter is older than the input, the
output is up to date and the module is not to be built again. -/
theorem fresh_of_times_le :
    (∀ {w w' : World} {path path' : Path} {time time' : Time},
      w.tree.IsDated path time → w'.tree.IsDated path' time' → time ≤ time' →
        ∃ stamp stamp', lastModified path w = .ok (some stamp) w ∧
          lastModified path' w' = .ok (some stamp') w' ∧ stamp ≤ stamp') ∧
    ∀ {o : Options} {inputs : Inputs} {m : ModuleName} {w : World} {path : Path}
      {input source externs : Time},
      inputs.lookup m = .ok (.path path) → w.tree.IsDated path input →
        w.tree.IsDated (o.artifacts m).source source →
        w.tree.IsDated (o.artifacts m).externs externs → input ≤ source → input ≤ externs →
          needsRebuild o inputs m w = .ok false w ∧
            isUpToDate o inputs m w = .ok (some true) w := by
  constructor
  · intro w w' path path' time time' hdated hdated' hle
    refine ⟨time.timestamp, time'.timestamp, ?_, ?_,
      Time.timestamp_le hdated.inCalendar hdated'.inCalendar hle⟩
    · rw [lastModified_apply, hdated.timestamp?]
      rfl
    · rw [lastModified_apply, hdated'.timestamp?]
      rfl
  · intro o inputs m w path input source externs hpath hinput hsource hexterns hle hle'
    have hfresh := upToDateIn_of_le hpath hinput hsource hexterns hle hle'
    constructor
    · rw [needsRebuild_apply, staleIn_eq_false hfresh]
      rfl
    · rw [isUpToDate_apply, hfresh]
      rfl

/-- A world in which an input was modified in the last nanosecond before 1970, the source at the
beginning of 1970, and the interface a nanosecond after it. -/
def epochWorld : World where
  tree :=
    { entries :=
        [(["src"], .dir), (["src", "A.purs"], .file [] ⟨-1, 999999999⟩), (["output"], .dir),
          (["output", "A"], .dir), (["output", "A", "A.cc"], .file [] ⟨0, 0⟩),
          (["output", "A", "externs.purs"], .file [] ⟨0, 1⟩)] }
  clock := ⟨1500000000, 0⟩

/-- The times are less than a microsecond apart, and the output is fresh. -/
theorem fresh_at_epoch :
    let o := foreignProject.options
    let inputs := foreignProject.inputs
    let m := plainJob.module.name
    epochWorld.tree.IsDated ⟨.relative, ["src", "A.purs"]⟩ ⟨-1, 999999999⟩ ∧
      epochWorld.tree.IsDated (o.artifacts m).source ⟨0, 0⟩ ∧
      epochWorld.tree.IsDated (o.artifacts m).externs ⟨0, 1⟩ ∧
      needsRebuild o inputs m epochWorld = .ok false epochWorld ∧
      isUpToDate o inputs m epochWorld = .ok (some true) epochWorld := by
  intro o inputs m
  have hcalendar {time : Time} (hlow : -1 ≤ time.seconds) (hhigh : time.seconds ≤ 0) :
      time.timestamp.InCalendar :=
    Time.inCalendar_of_seconds (by omega) (by omega)
  have hinput : epochWorld.tree.IsDated ⟨.relative, ["src", "A.purs"]⟩ ⟨-1, 999999999⟩ :=
    ⟨⟨[], by decide +kernel⟩, hcalendar (by decide) (by decide)⟩
  have hsource : epochWorld.tree.IsDated (o.artifacts m).source ⟨0, 0⟩ :=
    ⟨⟨[], by decide +kernel⟩, hcalendar (by decide) (by decide)⟩
  have hexterns : epochWorld.tree.IsDated (o.artifacts m).externs ⟨0, 1⟩ :=
    ⟨⟨[], by decide +kernel⟩, hcalendar (by decide) (by decide)⟩
  exact ⟨hinput, hsource, hexterns,
    fresh_of_times_le.2 rfl hinput hsource hexterns (by decide) (by decide)⟩

end ModuleBuild
