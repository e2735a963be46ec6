import ModuleBuild.Proofs.WritePlaces
import Mathlib.Data.List.TakeWhile

/-!
# Trees that builds have touched

Builds write files at places that no other generated file is in the way of.  So a tree that they
have touched answers as the tree they began with (`Tree.Touched`): the same writes are refused, for
the same reasons (`Tree.Touched.refusal?_eq`), and outside the output directory the same can be read
(`Tree.Touched.entryAt_eq`).

What becomes of texts that are written one after the other can therefore be told from the first tree
(`writeTexts_outcome`).
-/

namespace ModuleBuild

/-- Why a text cannot be written, if that is so. -/
def Tree.failure? (t : Tree) (x : PlannedWrite) : Option Failure :=
  match x.bytes? with
  | none => some (.error (.cannotWriteFile x.path.text (some "not encodable as UTF-8")))
  | some _ => (t.refusal? x.path).map (AccessKind.write.failure x.path)

/-- A text can be written if UTF-8 can encode it and its path is not refused. -/
lemma Tree.failure?_eq_none_iff {t : Tree} {x : PlannedWrite} :
    t.failure? x = none ↔ x.bytes? ≠ none ∧ t.refusal? x.path = none := by
  rw [failure?]
  cases x.bytes? <;> simp

/-- The texts that are written before the first one that cannot be. -/
def Tree.accepted (t : Tree) (writes : List PlannedWrite) : List PlannedWrite :=
  writes.takeWhile fun x => (t.failure? x).isNone

/-- What is around a plain path lies around its location. -/
lemma Path.IsAround.prefix_dropLast {path : Path} {q : Location} (hplain : path.IsPlain)
    (h : path.IsAround q) : q <+: path.location.dropLast := by
  obtain ⟨names, hnames, rfl⟩ := h
  have hlocation : locateNames names = names.map Text.onDisk :=
    locate_of_isPlain [] fun n hn => hplain n (List.dropLast_subset _ (hnames.subset hn))
  rw [hlocation, hplain.location_eq, ← Path.names_parent]
  exact hnames.map _

/-- What builds may have made of a tree: files at their places, and directories around these. -/
structure Tree.Touched (o : Options) (t₀ t : Tree) : Prop where
  /-- There are no links. -/
  isLinkFree : t.IsLinkFree
  /-- Elsewhere files are as before. -/
  files_eq : ∀ q, ¬o.IsFilePlace q → t.files q = t₀.files q
  /-- No directory is removed. -/
  keeps_dir : ∀ q, t₀.find? q = some .dir → t.find? q = some .dir
  /-- New directories are around places for files. -/
  new_dir : ∀ q, t.find? q = some .dir →
    t₀.find? q = some .dir ∨ ∃ place, o.IsFilePlace place ∧ q <+: place.dropLast

/-- What lies around a place for files is none. -/
lemma Options.IsFilePlace.not_prefix_dropLast {o : Options} {q place : Location}
    (hq : o.IsFilePlace q) (hplace : o.IsFilePlace place) : ¬q <+: place.dropLast := by
  intro haround
  have heq := hq.not_around hplace (haround.trans (List.dropLast_prefix place))
  obtain ⟨names, name, -, -, hname⟩ := hplace
  have hlength := haround.length_le
  rw [heq, List.length_dropLast, hname] at hlength
  simp only [List.length_append, List.length_singleton] at hlength
  omega

/-- Without links, a location holds the same if it has the same file and is alike a directory. -/
lemma Tree.find?_eq_of_files {t t' : Tree} (hfree : t.IsLinkFree) (hfree' : t'.IsLinkFree)
    {q : Location} (hfiles : t.files q = t'.files q)
    (hdir : t.find? q = some .dir ↔ t'.find? q = some .dir) : t.find? q = t'.find? q := by
  rw [files, files] at hfiles
  rcases he : t.find? q with _ | (⟨content, modified⟩ | _ | target) <;>
    rcases he' : t'.find? q with _ | (⟨content', modified'⟩ | _ | target') <;>
    simp only [he, he'] at hfiles hdir
  all_goals try exact absurd he (hfree _ _)
  all_goals try exact absurd he' (hfree' _ _)
  all_goals simp_all

/-! ### Performing one write -/

/-- What a write can do at a location when no link is on its way: nothing, make a directory around
the written file, or put the file there. -/
lemma Tree.find?_perform {t : Tree} {x : PlannedWrite} (hplain : x.path.IsPlain)
    (hclear : t.IsClear x.path.parts) (now : Time) (q : Location) :
    (t.perform now x).find? q = t.find? q ∨
      (t.find? q = none ∧ (t.perform now x).find? q = some .dir ∧
        q <+: x.path.location.dropLast) ∨
      (q = x.path.location ∧
        ∃ bytes, x.bytes? = some bytes ∧ (t.perform now x).find? q = some (.file bytes now)) := by
  rw [perform]
  cases hbytes : x.bytes? with
  | none => exact .inl rfl
  | some bytes =>
    dsimp only
    have hdirs {t₁ : Tree}
        (hadds : AddsDirs (fun q => t.IsClear x.path.parts → x.path.IsAround q) t t₁) :
        t₁.find? q = t.find? q ∨
          (t.find? q = none ∧ t₁.find? q = some .dir ∧ q <+: x.path.location.dropLast) := by
      apply (hadds q).imp_right
      rintro ⟨hnone, hdir, haround⟩
      exact ⟨hnone, hdir, (haround hclear).prefix_dropLast hplain⟩
    rcases t.writeWithDirs_cases x.path bytes now with
      ⟨e, t', hwrite, hadds⟩ | ⟨t₁, t', p, hwrite, hadds, hputs, hp⟩
    · rw [hwrite]
      exact (hdirs hadds).imp_right .inl
    · rw [hwrite, hputs.find?_eq, hp hclear]
      by_cases hq : q = x.path.location
      · exact .inr (.inr ⟨hq, bytes, rfl, if_pos hq⟩)
      · rw [if_neg hq]
        exact (hdirs hadds).imp_right .inl

/-! ### Touched trees -/

namespace Tree.Touched

variable {o : Options} {t₀ t t' : Tree} {now : Time}

/-- Nothing has been done yet. -/
lemma refl (hfree : t.IsLinkFree) : Touched o t t where
  isLinkFree := hfree
  files_eq _ _ := rfl
  keeps_dir _ h := h
  new_dir _ h := .inl h

/-- A tree stays touched when more is written to places for files. -/
lemma wrote (h : Touched o t₀ t) {done tried : List PlannedWrite}
    (hwrote : Wrote now done tried t t') (hdone : ∀ x ∈ done, o.Places x)
    (htried : ∀ x ∈ tried, o.Places x) : Touched o t₀ t' where
  isLinkFree := hwrote.isLinkFree
  files_eq q hq := by
    rw [hwrote.files_eq, Files.overridden_of_notMem, h.files_eq q hq]
    rintro x hx rfl
    exact hq (hdone x hx).2
  keeps_dir q hq := hwrote.keeps_dir q (h.keeps_dir q hq)
  new_dir q hq := by
    rcases hwrote.new_dir q hq with hq | ⟨x, hx, haround⟩
    · exact h.new_dir q hq
    · obtain ⟨hplain, hplace⟩ := htried x hx
      exact .inr ⟨x.path.location, hplace, haround.prefix_dropLast hplain⟩

/-- The same writes are refused as at first. -/
theorem refusal?_eq (h : Touched o t₀ t) {x : PlannedWrite} (hx : o.Places x) :
    t.refusal? x.path = t₀.refusal? x.path := by
  obtain ⟨hplain, hplace⟩ := hx
  refine Tree.refusal?_congr (fun q hq => ?_) ⟨fun hdir => ?_, h.keeps_dir _⟩
  · have hnot : ¬o.IsFilePlace q := by
      intro hq'
      refine hq'.not_prefix_dropLast hplace ?_
      rwa [hplain.location_eq, ← Path.names_parent]
    rw [h.files_eq q hnot]
  · rcases h.new_dir _ hdir with hdir | ⟨place, hplace', haround⟩
    · exact hdir
    · exact absurd haround (hplace.not_prefix_dropLast hplace')

/-- The same texts cannot be written as at first. -/
lemma failure?_eq (h : Touched o t₀ t) {x : PlannedWrite} (hx : o.Places x) :
    t.failure? x = t₀.failure? x := by
  rw [failure?, failure?, h.refusal?_eq hx]

/-- When the output directory is there, what stands elsewhere than below it is the same. -/
lemma find?_eq (h : Touched o t₀ t) (h' : Touched o t₀ t')
    (hdir : t.find? o.outputDir.location = some .dir)
    (hdir' : t'.find? o.outputDir.location = some .dir) {q : Location}
    (hq : o.outputDir.location <+: q → q = o.outputDir.location) : t.find? q = t'.find? q := by
  have hplace : ¬o.IsFilePlace q := by
    rintro ⟨names, name, -, -, rfl⟩
    have hself := hq (List.prefix_append _ _)
    simp at hself
  -- A directory of the one tree is a directory of the other.
  have hdirs {s s' : Tree} (hs : Touched o t₀ s) (hs' : Touched o t₀ s')
      (hout : s'.find? o.outputDir.location = some .dir) (hfind : s.find? q = some .dir) :
      s'.find? q = some .dir := by
    rcases hs.new_dir q hfind with hold | ⟨place, ⟨names, name, -, -, rfl⟩, haround⟩
    · exact hs'.keeps_dir q hold
    · rw [← List.append_assoc, List.dropLast_concat] at haround
      have hout' : q <+: o.outputDir.location := by
        rcases List.prefix_or_prefix_of_prefix haround (List.prefix_append _ names) with hq' | hq'
        · exact hq'
        · exact hq hq' ▸ List.prefix_rfl
      obtain ⟨rest, hrest⟩ := hout'
      by_cases hnil : rest = []
      · rw [← hrest, hnil, List.append_nil] at hout
        exact hout
      · rw [← hrest] at hout
        exact find?_of_append hnil hout
  have hfiles : t.files q = t'.files q := by rw [h.files_eq q hplace, h'.files_eq q hplace]
  exact find?_eq_of_files h.isLinkFree h'.isLinkFree hfiles
    ⟨hdirs h h' hdir', hdirs h' h hdir⟩

/-- When the output directory is there, the same can be read next to anything outside it. -/
theorem entryAt_eq (h : Touched o t₀ t) (h' : Touched o t₀ t')
    (hdir : t.find? o.outputDir.location = some .dir)
    (hdir' : t'.find? o.outputDir.location = some .dir) {path : Path} (hplain : path.IsPlain)
    (hout : ¬o.outputDir.location <+: path.parent.names) : t.entryAt path = t'.entryAt path := by
  refine entryAt_congr hplain (h.isLinkFree.isClear _) fun q hq =>
    h.find?_eq h' hdir hdir' fun hbelow => ?_
  have heq : o.outputDir.location = path.names :=
    eq_of_prefix_of_not_prefix_dropLast (hbelow.trans hq) (path.names_parent ▸ hout)
  rw [← heq] at hq
  exact hq.eq_of_length_le hbelow.length_le

end Tree.Touched

/-! ### Writing texts -/

/-- An action's result that is reached in a world. -/
def endedIn {α : Type} : Except Failure α → World → EStateM.Result Failure World α
  | .ok a, w => .ok a w
  | .error e, w => .error e w

/-- What becomes of writing texts one after the other. -/
def Tree.verdict (t : Tree) (writes : List PlannedWrite) : Except Failure Unit :=
  match writes.findSome? t.failure? with
  | none => .ok ()
  | some e => .error e

/-- When nothing is refused, everything is written. -/
lemma Tree.accepted_of_verdict {t : Tree} {writes : List PlannedWrite} {u : Unit}
    (h : t.verdict writes = .ok u) :
    (∀ x ∈ writes, t.failure? x = none) ∧ t.accepted writes = writes := by
  have hnone : ∀ x ∈ writes, t.failure? x = none := by
    rw [verdict] at h
    split at h
    · next hnone => simpa using hnone
    · cases h
  refine ⟨hnone, List.takeWhile_eq_self_iff.2 fun x hx => ?_⟩
  rw [hnone x hx]
  rfl

/-- When nothing is to be refused, everything is written. -/
lemma Tree.verdict_of_accepted {t : Tree} {writes : List PlannedWrite}
    (h : ∀ x ∈ writes, t.failure? x = none) :
    t.verdict writes = .ok () ∧ t.accepted writes = writes := by
  have hverdict : t.verdict writes = .ok () := by
    rw [verdict, List.findSome?_eq_none_iff.2 h]
  exact ⟨hverdict, (accepted_of_verdict hverdict).2⟩

/-- In the two worlds everything but the tree and the announcements is the same. -/
structure World.Alike (w w' : World) : Prop where
  /-- The clocks show the same time. -/
  clock_eq : w'.clock = w.clock
  /-- The ledgers have the same warnings. -/
  ledger_eq : w'.ledger = w.ledger
  /-- The name supplies are the same. -/
  supplies_eq : w'.supplies = w.supplies

lemma World.Alike.trans {w w' w'' : World} (h : w.Alike w') (h' : w'.Alike w'') : w.Alike w'' where
  clock_eq := h'.clock_eq.trans h.clock_eq
  ledger_eq := h'.ledger_eq.trans h.ledger_eq
  supplies_eq := h'.supplies_eq.trans h.supplies_eq

section Writing

variable {o : Options} {t₀ : Tree} {w : World}

/-- A text is written unless the tree from the beginning refuses it. -/
lemma writeText_outcome (ht : t₀.Touched o w.tree) {x : PlannedWrite} (hx : o.Places x) :
    ∃ w', w.Alike w' ∧
      ((t₀.failure? x = none ∧ writeText x.path x.text w = .ok () w' ∧
          Wrote w.clock [x] [x] w.tree w'.tree) ∨
        ∃ e, t₀.failure? x = some e ∧ writeText x.path x.text w = .error e w' ∧
          Wrote w.clock [] [x] w.tree w'.tree) := by
  have hfree := ht.isLinkFree
  rw [← ht.failure?_eq hx, Tree.failure?, writeText_apply]
  cases hchars : x.text.chars? with
  | none =>
    have hbytes : x.bytes? = none := by rw [PlannedWrite.bytes?, hchars, Option.map_none]
    rw [hbytes]
    exact ⟨w.writing x.path, ⟨rfl, rfl, rfl⟩, .inr ⟨_, rfl, rfl, .refl hfree⟩⟩
  | some cs =>
    have hbytes : x.bytes? = some (Utf8.encode cs) := by
      rw [PlannedWrite.bytes?, hchars, Option.map_some]
    have hparts : x.path.parts ≠ [] := by
      obtain ⟨hplain, names, name, -, -, hlocation⟩ := hx
      rw [hplain.location_eq] at hlocation
      rw [ne_eq, ← Path.names_eq_nil_iff, hlocation]
      simp
    have houtcome :=
      Tree.writeWithDirs_outcome hx.1 (hfree.isClear _) hparts (Utf8.encode cs) w.clock
    rw [hbytes]
    dsimp only
    rcases h : w.tree.writeWithDirs x.path (Utf8.encode cs) w.clock with ⟨tree, e | ⟨⟩⟩
    · rw [h] at houtcome
      cases hrefusal : w.tree.refusal? x.path with
      | none =>
        rw [hrefusal] at houtcome
        cases houtcome
      | some e' =>
        rw [hrefusal] at houtcome
        cases houtcome
        exact ⟨{ w.writing x.path with tree }, ⟨rfl, rfl, rfl⟩,
          .inr ⟨_, rfl, rfl, .of_refused hfree h⟩⟩
    · rw [h] at houtcome
      cases hrefusal : w.tree.refusal? x.path with
      | some e' =>
        rw [hrefusal] at houtcome
        cases houtcome
      | none =>
        exact ⟨{ w.writing x.path with tree }, ⟨rfl, rfl, rfl⟩,
          .inl ⟨rfl, rfl, .of_written hfree hbytes h⟩⟩

/-- Of texts that are written one after the other, those before the first refused one are. -/
theorem writeTexts_outcome (ht : t₀.Touched o w.tree) {writes : List PlannedWrite}
    (hwrites : ∀ x ∈ writes, o.Places x) :
    ∃ w', w.Alike w' ∧ writeTexts writes w = endedIn (t₀.verdict writes) w' ∧
      Wrote w.clock (t₀.accepted writes) (writes.take ((t₀.accepted writes).length + 1)) w.tree
        w'.tree := by
  induction writes generalizing w with
  | nil => exact ⟨w, ⟨rfl, rfl, rfl⟩, rfl, .refl ht.isLinkFree⟩
  | cons x writes ih =>
    have hx : ∀ y ∈ [x], o.Places y := by simpa using hwrites x List.mem_cons_self
    rw [writeTexts, bind_apply]
    obtain ⟨w₁, halike, ⟨hfailure, hwrite, hwrote⟩ | ⟨e, hfailure, hwrite, hwrote⟩⟩ :=
      writeText_outcome ht (hwrites x List.mem_cons_self)
    · obtain ⟨w₂, halike₂, hwrites₂, hwrote₂⟩ :=
        ih (ht.wrote hwrote hx hx) fun y hy => hwrites y (List.mem_cons_of_mem _ hy)
      have haccepted : t₀.accepted (x :: writes) = x :: t₀.accepted writes := by
        simp [Tree.accepted, hfailure]
      have hverdict : t₀.verdict (x :: writes) = t₀.verdict writes := by
        simp [Tree.verdict, List.findSome?, hfailure]
      rw [halike.clock_eq] at hwrote₂
      rw [hwrite, haccepted, hverdict]
      exact ⟨w₂, halike.trans halike₂, hwrites₂, hwrote.trans hwrote₂⟩
    · have haccepted : t₀.accepted (x :: writes) = [] := by simp [Tree.accepted, hfailure]
      have hverdict : t₀.verdict (x :: writes) = .error e := by
        simp [Tree.verdict, List.findSome?, hfailure]
      rw [hwrite, haccepted, hverdict]
      exact ⟨w₁, halike, rfl, hwrote⟩

end Writing

end ModuleBuild
