import ModuleBuild.Proofs.FixedBuild
import ModuleBuild.Proofs.Tree.Prefixed
import ModuleBuild.Proofs.WrittenTexts

/-!
# With and without the provenance line

The setting `usePrefix` makes a build put a line in front of the generated source and the generated
header, which says what generated them.  Two builds of one module from the same world, one without
the line and one with it, are compared step by step.

Most steps never look at what those two files hold: they end alike in worlds whose trees are alike
up to the line (`IgnoresPrefix`, with a rule for each action).  The two writes that the line goes
into put one more file among those with the line (`endsAlike_writeTexts_after`).  So the two builds
end with the same result and announce and warn of the same, and the line is all that their trees
differ by (`Project.build_usePrefix`), unless a foreign input of the module is one of the two files,
as in `foreign_input_inside_output`.
-/

namespace ModuleBuild

variable {α β γ ε : Type} {lead : List UInt8} {places : List Location}

/-! ### Texts with a line in front -/

/-- The characters of a text are those of its parts. -/
lemma Text.chars?_append {t : Text} {cs : List Char} (h : t.chars? = some cs) (t' : Text) :
    (t ++ t').chars? = t'.chars?.map (cs ++ ·) := by
  induction t generalizing cs with
  | nil =>
    cases h
    simp
  | cons c t ih =>
    cases c with
    | scalar c =>
      simp only [chars?, Option.map_eq_some_iff] at h
      obtain ⟨ds, hds, rfl⟩ := h
      simp only [List.cons_append, chars?, ih hds, Option.map_map]
      rfl
    | surrogate n => cases h

/-- A planned text with another one in front. -/
def PlannedWrite.after (first : Text) (x : PlannedWrite) : PlannedWrite where
  path := x.path
  text := first ++ x.text

/-! ### Runs side by side -/

/-- Two worlds that are the same but for a prefix that some files of the second have. -/
structure World.Prefixed (lead : List UInt8) (places : List Location) (w w' : World) : Prop where
  /-- The trees are alike up to the prefix. -/
  tree : w.tree.Prefixed lead places w'.tree
  /-- There are no links. -/
  isLinkFree : w.tree.IsLinkFree
  /-- The clocks are the same. -/
  clock_eq : w'.clock = w.clock
  /-- The announcements are the same. -/
  log_eq : w'.log = w.log
  /-- The warnings are the same. -/
  ledger_eq : w'.ledger = w.ledger
  /-- The name supplies are the same. -/
  supplies_eq : w'.supplies = w.supplies

/-- Two runs end with the same value or the same failure, in worlds that are the same but for the
prefix. -/
structure EndsAlike (lead : List UInt8) (places : List Location)
    (r r' : EStateM.Result Failure World α) : Prop where
  /-- The results are the same. -/
  result_eq : resultOf r' = resultOf r
  /-- The worlds are alike. -/
  worlds : (worldAfter r).Prefixed lead places (worldAfter r')

variable {w w' : World}

/-- A world is like itself, without any file with the prefix. -/
lemma World.Prefixed.refl (hfree : w.tree.IsLinkFree) : w.Prefixed lead [] w :=
  ⟨.refl _, hfree, rfl, rfl, rfl, rfl⟩

/-- Of the list of places only the members matter. -/
lemma World.Prefixed.congr {places' : List Location} (h : w.Prefixed lead places w')
    (hplaces : ∀ q, q ∈ places ↔ q ∈ places') : w.Prefixed lead places' w' where
  tree :=
    { find?_eq := fun q hq => h.tree.find?_eq q (mt (hplaces q).1 hq)
      exists_file := fun q hq => h.tree.exists_file q ((hplaces q).2 hq) }
  isLinkFree := h.isLinkFree
  clock_eq := h.clock_eq
  log_eq := h.log_eq
  ledger_eq := h.ledger_eq
  supplies_eq := h.supplies_eq

/-- Worlds stay alike when the same is announced in both. -/
lemma World.Prefixed.announced (h : w.Prefixed lead places w') (e : LogEntry) :
    (w.announced e).Prefixed lead places (w'.announced e) where
  tree := h.tree
  isLinkFree := h.isLinkFree
  clock_eq := h.clock_eq
  log_eq := congrArg (· ++ [e]) h.log_eq
  ledger_eq := h.ledger_eq
  supplies_eq := h.supplies_eq

/-- Worlds stay alike when their trees are replaced by trees that are. -/
lemma World.Prefixed.withTree {places' : List Location} (h : w.Prefixed lead places w')
    {t t' : Tree} (htree : t.Prefixed lead places' t') (hfree : t.IsLinkFree) :
    World.Prefixed lead places' { w with tree := t } { w' with tree := t' } where
  tree := htree
  isLinkFree := hfree
  clock_eq := h.clock_eq
  log_eq := h.log_eq
  ledger_eq := h.ledger_eq
  supplies_eq := h.supplies_eq

/-- Runs go on alike after they were alike. -/
lemma EndsAlike.bind {x x' : Build α} {f f' : α → Build β}
    (hx : EndsAlike lead places (x w) (x' w'))
    (hf : ∀ a w₁ w₁', x w = .ok a w₁ → w₁.Prefixed lead places w₁' →
      EndsAlike lead places (f a w₁) (f' a w₁')) :
    EndsAlike lead places ((x >>= f) w) ((x' >>= f') w') := by
  obtain ⟨hresult, hworlds⟩ := hx
  rw [bind_apply, bind_apply]
  rcases h : x w with ⟨a, w₁⟩ | ⟨e, w₁⟩ <;> rcases h' : x' w' with ⟨a', w₁'⟩ | ⟨e', w₁'⟩ <;>
    rw [h, h'] at hresult hworlds <;> cases hresult
  · exact hf a w₁ w₁' h hworlds
  · exact ⟨rfl, hworlds⟩

/-! ### Actions that ignore the prefix -/

/-- An action that ends alike in worlds that are alike. -/
def IgnoresPrefix (lead : List UInt8) (places : List Location) (x : Build α) : Prop :=
  ∀ ⦃w w' : World⦄, w.Prefixed lead places w' → EndsAlike lead places (x w) (x w')

namespace IgnoresPrefix

lemma pure (a : α) : IgnoresPrefix lead places (Pure.pure a : Build α) := fun _ _ h => ⟨rfl, h⟩

lemma throw (e : Failure) : IgnoresPrefix lead places (MonadExcept.throw e : Build α) :=
  fun _ _ h => ⟨rfl, h⟩

lemma bind {x : Build α} {f : α → Build β} (hx : IgnoresPrefix lead places x)
    (hf : ∀ a, IgnoresPrefix lead places (f a)) : IgnoresPrefix lead places (x >>= f) :=
  fun _ _ h => (hx h).bind fun a _ _ _ h₁ => hf a h₁

/-- Announcing something depends on no file. -/
lemma announce (e : LogEntry) : IgnoresPrefix lead places (ModuleBuild.announce e) :=
  fun _ _ h => ⟨rfl, h.announced e⟩

/-- A warning depends on no file. -/
lemma warn (e : BuildError) : IgnoresPrefix lead places (ModuleBuild.warn e : Build Unit) :=
  fun _ _ h => ⟨rfl, ⟨h.tree, h.isLinkFree, h.clock_eq, h.log_eq,
    congrArg (Ledger.warn · e) h.ledger_eq, h.supplies_eq⟩⟩

/-- A question to the tree, if its answer does not depend on the prefix. -/
lemma query {kind : AccessKind} {path : Path} {ask : Tree → Except AccessError α}
    (hask : ∀ t t' : Tree, t.Prefixed lead places t' → t.IsLinkFree → ask t' = ask t) :
    IgnoresPrefix lead places (ModuleBuild.query kind path ask) := by
  intro w w' h
  rw [query_apply, query_apply, hask _ _ h.tree h.isLinkFree]
  cases ask w.tree <;> exact ⟨rfl, h⟩

/-- Whether there is a file does not depend on what it holds. -/
lemma fileExists (path : Path) : IgnoresPrefix lead places (ModuleBuild.fileExists path) :=
  query fun _ _ h _ => by rw [h.isFile_eq]

/-- Reading a text depends on no other file. -/
lemma readText {path : Path} (hpath : path.location ∉ places) :
    IgnoresPrefix lead places (ModuleBuild.readText path) := by
  refine (announce _).bind fun _ => (query fun _ _ h hfree => h.readFile_eq hfree hpath).bind
    fun bytes => ?_
  cases Utf8.decode bytes with
  | ok cs => exact pure _
  | error e => exact throw _

/-- Reading a text if there is one depends on no other file. -/
lemma readTextIfExists {path : Path} (hpath : path.location ∉ places) :
    IgnoresPrefix lead places (ModuleBuild.readTextIfExists path) := by
  refine (fileExists path).bind fun exists' => ?_
  cases exists' with
  | false => exact pure _
  | true => exact (readText hpath).bind fun _ => pure _

/-- Writing a text to another place depends on no other file. -/
lemma writeText {path : Path} (hpath : path.location ∉ places) (t : Text) :
    IgnoresPrefix lead places (ModuleBuild.writeText path t) := by
  intro w w' h
  rw [writeText_apply, writeText_apply, h.clock_eq]
  cases t.chars? with
  | none => exact ⟨rfl, h.announced _⟩
  | some cs =>
    dsimp only
    obtain ⟨heq, htree⟩ := h.tree.writeWithDirs_same h.isLinkFree hpath (Utf8.encode cs) w.clock
    have hfree := Tree.isLinkFree_writeWithDirs h.isLinkFree path (Utf8.encode cs) w.clock
    rcases hwrite : w.tree.writeWithDirs path (Utf8.encode cs) w.clock with ⟨t₁, r⟩
    rcases hwrite' : w'.tree.writeWithDirs path (Utf8.encode cs) w.clock with ⟨t₁', r'⟩
    rw [hwrite, hwrite'] at heq htree
    rw [hwrite] at hfree
    cases heq
    rcases r with e | ⟨⟩ <;> exact ⟨rfl, (h.announced _).withTree htree hfree⟩

/-- Writing texts to other places depends on no other file. -/
lemma writeTexts {writes : List PlannedWrite} (hwrites : ∀ x ∈ writes, x.path.location ∉ places) :
    IgnoresPrefix lead places (ModuleBuild.writeTexts writes) := by
  induction writes with
  | nil => exact pure ()
  | cons x writes ih =>
    exact (writeText (hwrites x List.mem_cons_self) _).bind fun _ =>
      ih fun y hy => hwrites y (List.mem_cons_of_mem _ hy)

/-- Finding out where foreign files would be depends on no file. -/
lemma foreignFiles (o : Options) (input : Path) :
    IgnoresPrefix lead places (ModuleBuild.foreignFiles o input) := by
  rw [ModuleBuild.foreignFiles]
  cases o.foreignFiles input with
  | ok files => exact pure _
  | error e => exact throw _

/-- A warning of a foreign header does not depend on what the header holds. -/
lemma warnUnusedForeign (p : Project β γ ε) (m : ModuleName) :
    IgnoresPrefix lead places (p.warnUnusedForeign m) := by
  rw [Project.warnUnusedForeign]
  rcases p.inputs.find? m with _ | policy | input
  · exact pure ()
  · exact pure ()
  · refine ((foreignFiles _ _).bind fun _ => fileExists _).bind fun exists' => ?_
    cases exists' with
    | false => exact pure ()
    | true => exact (foreignFiles _ _).bind fun _ => warn _

end IgnoresPrefix

/-- Support files are installed in both worlds or in none, if they belong to other places. -/
lemma endsAlike_ensureSupport {o : Options} (h : w.Prefixed lead places w')
    (hsupport : ∀ x ∈ o.supportWrites w.tree, x.path.location ∉ places) :
    EndsAlike lead places (ensureSupport o w) (ensureSupport o w') := by
  rw [ensureSupport_apply, ensureSupport_apply, h.tree.isDir_eq]
  by_cases hfaulty : o.outputDir.isFaulty = true
  · rw [if_pos hfaulty, if_pos hfaulty]
    exact ⟨rfl, h⟩
  rw [if_neg hfaulty, if_neg hfaulty]
  rw [Options.supportWrites_eq] at hsupport
  rcases hmark : w.tree.isDir o.supportMark with e | (_ | _)
  · exact ⟨rfl, h⟩
  · rw [hmark] at hsupport
    dsimp only
    rw [installFiles_eq]
    exact (IgnoresPrefix.writeTexts hsupport).bind (fun _ => .pure true) h
  · exact ⟨rfl, h⟩

/-! ### Writing with the line in front -/

section After

variable {first : Text} {cs : List Char} (hfirst : first.chars? = some cs)

include hfirst

/-- A text is written, with the line in front in one of two worlds, or its place is refused in
both. -/
lemma writeText_after (h : w.Prefixed (Utf8.encode cs) places w') (x : PlannedWrite) :
    (∃ e w₁ w₁', writeText x.path x.text w = .error e w₁ ∧
      writeText x.path (first ++ x.text) w' = .error e w₁' ∧
      w₁.Prefixed (Utf8.encode cs) places w₁') ∨
    ∃ w₁ w₁', writeText x.path x.text w = .ok () w₁ ∧
      writeText x.path (first ++ x.text) w' = .ok () w₁' ∧
      w₁.Prefixed (Utf8.encode cs) (x.path.location :: places) w₁' := by
  rw [writeText_apply, writeText_apply, Text.chars?_append hfirst, h.clock_eq]
  cases x.text.chars? with
  | none => exact .inl ⟨_, _, _, rfl, rfl, h.announced _⟩
  | some ds =>
    have hbytes : Utf8.encode (cs ++ ds) = Utf8.encode cs ++ Utf8.encode ds := List.flatMap_append
    have hfree := Tree.isLinkFree_writeWithDirs h.isLinkFree x.path (Utf8.encode ds) w.clock
    simp only [Option.map_some, hbytes]
    obtain ⟨e, t₁, t₁', he, he', htree⟩ | ⟨t₁, t₁', hw, hw', htree⟩ :=
      h.tree.writeWithDirs_prefixed h.isLinkFree x.path (Utf8.encode ds) w.clock
    · rw [he] at hfree
      rw [he, he']
      exact .inl ⟨_, _, _, rfl, rfl, (h.announced _).withTree htree hfree⟩
    · rw [hw] at hfree
      rw [hw, hw']
      exact .inr ⟨_, _, rfl, rfl, (h.announced _).withTree htree hfree⟩

/-- Texts are written, with the line in front of each in one of two worlds, up to the same one. -/
lemma endsAlike_writeTexts_after (h : w.Prefixed (Utf8.encode cs) places w')
    (writes : List PlannedWrite) :
    let count := w.tree.countWritten w.clock writes
    w'.tree.countWritten w'.clock (writes.map (.after first)) = count ∧
      EndsAlike (Utf8.encode cs) ((writes.take count).map (·.path.location) ++ places)
        (writeTexts writes w) (writeTexts (writes.map (.after first)) w') := by
  induction writes generalizing w w' places with
  | nil => exact ⟨rfl, rfl, h⟩
  | cons x writes ih =>
    rw [List.map_cons, countWritten_cons, countWritten_cons, writeTexts, writeTexts, bind_apply,
      bind_apply]
    simp only [PlannedWrite.after]
    obtain ⟨e, w₁, w₁', he, he', h₁⟩ | ⟨w₁, w₁', hw, hw', h₁⟩ := writeText_after hfirst h x
    · rw [he, he']
      exact ⟨rfl, rfl, h₁⟩
    · rw [hw, hw']
      obtain ⟨hcount, hresult, hworlds⟩ := ih h₁
      refine ⟨congrArg (· + 1) hcount, hresult, hworlds.congr fun q => ?_⟩
      simp only [List.take_succ_cons, List.map_cons, List.cons_append, List.mem_append,
        List.mem_cons]
      exact or_left_comm

end After

/-! ### The line -/

/-- The line that says what generated a file, with its end. -/
def Options.provenance (o : Options) : Text :=
  "// Generated by " ++ o.toolName ++ " version " ++ o.version ++ "\n"

/-- The line can be encoded if the name and the version of the tool can. -/
lemma Options.exists_chars_provenance {o : Options} (htool : o.toolName.chars? ≠ none)
    (hversion : o.version.chars? ≠ none) : ∃ cs, o.provenance.chars? = some cs := by
  obtain ⟨tool, htool⟩ := Option.ne_none_iff_exists'.1 htool
  obtain ⟨version, hversion⟩ := Option.ne_none_iff_exists'.1 hversion
  have hfirst : Text.chars? ("// Generated by " : Text) = some "// Generated by ".toList :=
    Text.chars?_ofChars _
  have hmiddle : Text.chars? (" version " : Text) = some " version ".toList := Text.chars?_ofChars _
  have hlast : Text.chars? ("\n" : Text) = some "\n".toList := Text.chars?_ofChars _
  simp only [provenance, List.append_assoc]
  rw [Text.chars?_append hfirst, Text.chars?_append htool, Text.chars?_append hmiddle,
    Text.chars?_append hversion, hlast]
  exact ⟨_, rfl⟩

/-- The settings with the line switched on or off. -/
def Options.withUsePrefix (o : Options) (on : Bool) : Options := { o with usePrefix := on }

/-- The line is all that switching it on changes in a generated file. -/
lemma withPrefix_withUsePrefix (o : Options) (body : Text) :
    withPrefix (o.withUsePrefix true).provenanceLines body =
      o.provenance ++ withPrefix (o.withUsePrefix false).provenanceLines body := by
  have hstart : commentLine "Generated by " = "// Generated by " := by decide
  have hon : (o.withUsePrefix true).provenanceLines =
      ["Generated by " ++ o.toolName ++ " version " ++ o.version] := rfl
  have hoff : (o.withUsePrefix false).provenanceLines = [] := rfl
  rw [hon, hoff, Options.provenance, ← hstart]
  simp only [withPrefix, commentLine, List.map_cons, List.map_nil, List.cons_append,
    List.nil_append, Text.join, List.append_assoc]

/-- Whether a file of a module is one of those that are generated with the line. -/
def ArtifactKind.IsCode (kind : ArtifactKind) : Prop := kind = .source ∨ kind = .header

namespace Project

variable (p : Project β γ ε) (job : Job β γ)

/-- The project with the line switched on or off. -/
def withUsePrefix (on : Bool) : Project β γ ε := { p with options := p.options.withUsePrefix on }

/-- The planned source and header of a module. -/
def codeWrites (texts : Rendering) : List PlannedWrite :=
  let places := p.options.artifacts job.module.name
  [⟨places.source, texts.source⟩, ⟨places.header, texts.header⟩]

/-- The places of the source and the header of a module, as far as a build writes them. -/
def writtenCode (w : World) : List Location :=
  match p.plannedTexts job (w.supply job.supply) with
  | none => []
  | some texts =>
    let writes := p.codeWrites job texts
    (writes.take (w.tree.countWritten w.clock writes)).map (·.path.location)

/-- Whether the foreign files of a module are other files than its generated source and header. -/
def ReadsOtherFiles : Prop :=
  ∀ input files, p.inputs.lookupPath job.module.name = .ok input →
    p.options.foreignFiles input = .ok files → ∀ kind : ArtifactKind, kind.IsCode →
      files.header.location ≠ ((p.options.artifacts job.module.name).place kind).location ∧
      files.source.location ≠ ((p.options.artifacts job.module.name).place kind).location

variable {p job} {w : World}

/-- Only the source and the header of the module are written with the line. -/
lemma exists_kind_of_mem_writtenCode {q : Location} (hq : q ∈ p.writtenCode job w) :
    ∃ kind : ArtifactKind, kind.IsCode ∧
      q = ((p.options.artifacts job.module.name).place kind).location := by
  rw [writtenCode] at hq
  cases htexts : p.plannedTexts job (w.supply job.supply) with
  | none =>
    rw [htexts] at hq
    cases hq
  | some texts =>
    rw [htexts] at hq
    obtain ⟨x, hx, rfl⟩ := List.mem_map.1 hq
    have hx' := List.mem_of_mem_take hx
    simp only [codeWrites, List.mem_cons, List.not_mem_nil, or_false] at hx'
    rcases hx' with rfl | rfl
    · exact ⟨.source, .inl rfl, rfl⟩
    · exact ⟨.header, .inr rfl, rfl⟩

/-! ### Rendering and finishing -/

/-- Rendering fails alike with and without the line, or the line is in front of both texts. -/
lemma render_withUsePrefix (p : Project β γ ε) (job : Job β γ) (w : World) :
    (∃ e w₁, (p.withUsePrefix false).render job w = .error e w₁ ∧
      (p.withUsePrefix true).render job w = .error e w₁) ∨
    ∃ texts w₁, (p.withUsePrefix false).render job w = .ok texts w₁ ∧
      (p.withUsePrefix true).render job w =
        .ok ⟨p.options.provenance ++ texts.source, p.options.provenance ++ texts.header⟩ w₁ := by
  have hgenerate : (p.withUsePrefix true).generate job w =
      (p.withUsePrefix false).generate job w := rfl
  have hprint (pieces : List (Piece ε)) (w : World) :
      (∃ e w₁, (p.withUsePrefix false).print pieces w = .error e w₁ ∧
        (p.withUsePrefix true).print pieces w = .error e w₁) ∨
      ∃ t w₁, (p.withUsePrefix false).print pieces w = .ok t w₁ ∧
        (p.withUsePrefix true).print pieces w = .ok (p.options.provenance ++ t) w₁ := by
    rw [print_apply, print_apply]
    simp only [withUsePrefix, withPrefix_withUsePrefix]
    cases p.generator.print pieces with
    | error e => exact .inl ⟨e, _, rfl, rfl⟩
    | ok t => exact .inr ⟨_, _, rfl, rfl⟩
  rw [render, render, bind_apply, bind_apply, hgenerate]
  rcases (p.withUsePrefix false).generate job w with ⟨pieces, w₁⟩ | ⟨e, w₁⟩
  · dsimp only
    rw [bind_apply, bind_apply]
    obtain ⟨e, w₂, he, he'⟩ | ⟨source, w₂, hs, hs'⟩ := hprint (splitHeader pieces).2 w₁
    · rw [he, he']
      exact .inl ⟨e, w₂, rfl, rfl⟩
    · rw [hs, hs']
      dsimp only
      rw [bind_apply, bind_apply]
      obtain ⟨e, w₃, he, he'⟩ | ⟨header, w₃, hh, hh'⟩ := hprint (splitHeader pieces).1 w₂
      · rw [he, he']
        exact .inl ⟨e, w₃, rfl, rfl⟩
      · rw [hh, hh']
        exact .inr ⟨⟨source, header⟩, w₃, rfl, rfl⟩
  · exact .inl ⟨e, w₁, rfl, rfl⟩

section Finish

variable (hnames : p.options.HasDefaultNames)
  (hplaces : ∀ q ∈ places, ∃ kind : ArtifactKind, kind.IsCode ∧
    q = ((p.options.artifacts job.module.name).place kind).location)

include hnames hplaces

/-- The other files of the module have other places. -/
lemma location_place_notMem (kind : ArtifactKind) (hkind : ¬kind.IsCode) :
    ((p.options.artifacts job.module.name).place kind).location ∉ places := by
  intro hq
  obtain ⟨kind', hcode, hlocation⟩ := hplaces _ hq
  obtain ⟨-, rfl⟩ := Options.location_place_injective hnames hlocation
  exact hkind hcode

/-- Copying foreign files depends on no generated file. -/
lemma ignoresPrefix_pairForeign {input : Path}
    (hother : ∀ files, p.options.foreignFiles input = .ok files →
      files.header.location ∉ places ∧ files.source.location ∉ places) :
    IgnoresPrefix lead places (pairForeign p.options job.module.name input) := by
  have hheaderCopy := location_place_notMem hnames hplaces .foreignHeader
    (by simp [ArtifactKind.IsCode])
  have hsourceCopy := location_place_notMem hnames hplaces .foreignSource
    (by simp [ArtifactKind.IsCode])
  refine fun w w' h => (IgnoresPrefix.foreignFiles _ _ h).bind fun files w₁ w₁' hfiles h₁ => ?_
  obtain ⟨hheader, hsource⟩ := hother files (eq_ok_of_foreignFiles hfiles).1
  refine (IgnoresPrefix.readTextIfExists hheader).bind (fun header => ?_) h₁
  cases header with
  | none => exact .throw _
  | some header =>
    refine (IgnoresPrefix.readTextIfExists hsource).bind fun source =>
      (IgnoresPrefix.writeText hheaderCopy _).bind fun _ => ?_
    cases source with
    | none => exact .pure ()
    | some source => exact .writeText hsourceCopy _

/-- The last step of a build depends on no generated file, if these are not read as foreign
files. -/
lemma ignoresPrefix_finishForeign (hother : p.ReadsOtherFiles job) :
    IgnoresPrefix lead places (p.finishForeign job) := by
  rw [finishForeign]
  by_cases hforeign : job.module.requiresForeign = true
  · rw [if_pos hforeign]
    cases hlookup : p.inputs.lookupPath job.module.name with
    | error e => exact fun w w' h => ⟨rfl, h⟩
    | ok input =>
      refine ignoresPrefix_pairForeign hnames hplaces fun files hfiles =>
        ⟨fun hq => ?_, fun hq => ?_⟩
      · obtain ⟨kind, hkind, hlocation⟩ := hplaces _ hq
        exact (hother input files hlookup hfiles kind hkind).1 hlocation
      · obtain ⟨kind, hkind, hlocation⟩ := hplaces _ hq
        exact (hother input files hlookup hfiles kind hkind).2 hlocation
  · rw [if_neg hforeign]
    exact .warnUnusedForeign p _

/-- Once the interface is written, the other steps of a build end alike: no support file replaces a
generated file, and none is read as a foreign file. -/
lemma endsAlike_finish {now : Time} (h : w.Prefixed lead places w')
    (hnew : w.tree.HasNew now ((p.options.artifacts job.module.name).place .externs))
    (hother : p.ReadsOtherFiles job) :
    EndsAlike lead places (p.finish job w) (p.finish job w') := by
  have hsupport (x : PlannedWrite) (hx : x ∈ p.options.supportWrites w.tree) :
      x.path.location ∉ places := by
    intro hq
    obtain ⟨kind, -, hlocation⟩ := hplaces _ hq
    exact Options.supportWrites_ne_place hnames hnew kind hx hlocation
  exact (endsAlike_ensureSupport h hsupport).bind fun _ _ _ _ h₁ =>
    ignoresPrefix_finishForeign hnames hplaces hother h₁

end Finish

/-! ### The builds -/

/-- A build that cannot render its module writes no code. -/
lemma writtenCode_of_error {e : Failure} {w₁ : World} (h : p.render job w = .error e w₁) :
    p.writtenCode job w = [] ∧ w₁.tree = w.tree := by
  obtain ⟨w₂, htree, -, ⟨e', hnone, hrender⟩ | ⟨texts, -, hrender⟩⟩ := p.render_cases job w
  · rw [h] at hrender
    cases hrender
    rw [writtenCode, hnone]
    exact ⟨rfl, htree⟩
  · rw [h] at hrender
    cases hrender

/-- A build that renders its module writes the code up to the text that is refused. -/
lemma writtenCode_of_ok {texts : Rendering} {w₁ : World} (h : p.render job w = .ok texts w₁) :
    p.writtenCode job w = ((p.codeWrites job texts).take
      (w₁.tree.countWritten w₁.clock (p.codeWrites job texts))).map (·.path.location) := by
  obtain ⟨htexts, htree, hclock⟩ := render_eq_ok h
  rw [writtenCode, htexts, htree, hclock]

/-- A build writes the code of its module before anything else. -/
lemma build_eq_codeWrites (p : Project β γ ε) (job : Job β γ) :
    p.build job = p.render job >>= fun texts =>
      (writeTexts (p.codeWrites job texts) >>= fun _ =>
        writeText (p.options.artifacts job.module.name).externs job.externs) >>= fun _ =>
      p.finish job := by
  simp only [build, finish, finishForeign, codeWrites, writeTexts, bind_assoc, pure_bind]

/-- A build that ends well has written all code. -/
lemma writtenCode_of_build {w' : World} (h : p.build job w = .ok () w') :
    p.writtenCode job w = [(p.options.artifacts job.module.name).source.location,
      (p.options.artifacts job.module.name).header.location] := by
  rw [build_eq_codeWrites] at h
  obtain ⟨texts, w₁, hrender, h⟩ := bind_eq_ok h
  obtain ⟨⟨⟩, w₂, hown, -⟩ := bind_eq_ok h
  obtain ⟨⟨⟩, w₃, hcode, -⟩ := bind_eq_ok hown
  obtain ⟨-, hcount, -⟩ := writeTexts_ok hcode
  rw [writtenCode_of_ok hrender, hcount, List.take_length]
  rfl

/-- The builds with and without the line end alike, in trees that differ by the line in the code
that was written. -/
lemma endsAlike_build (p : Project β γ ε) (job : Job β γ) (w : World)
    (hnames : p.options.HasDefaultNames) {cs : List Char}
    (hcs : p.options.provenance.chars? = some cs) (hfree : w.tree.IsLinkFree)
    (hother : p.ReadsOtherFiles job) :
    let written := (p.withUsePrefix false).writtenCode job w
    (p.withUsePrefix true).writtenCode job w = written ∧
      EndsAlike (Utf8.encode cs) written ((p.withUsePrefix false).build job w)
        ((p.withUsePrefix true).build job w) := by
  intro written
  have hplaces : ∀ q ∈ written, ∃ kind : ArtifactKind, kind.IsCode ∧
      q = ((p.options.artifacts job.module.name).place kind).location :=
    fun q hq => exists_kind_of_mem_writtenCode (p := p.withUsePrefix false) hq
  have hwritten : written = (p.withUsePrefix false).writtenCode job w := rfl
  rw [build_eq_codeWrites, build_eq_codeWrites, bind_apply, bind_apply]
  obtain ⟨e, w₁, he, he'⟩ | ⟨texts, w₁, hrender, hrender'⟩ := p.render_withUsePrefix job w
  · obtain ⟨hnone, htree⟩ := writtenCode_of_error he
    rw [he, he', hwritten, hnone]
    exact ⟨(writtenCode_of_error he').1, rfl, .refl (htree ▸ hfree)⟩
  rw [hrender, hrender']
  dsimp only
  obtain ⟨-, htree, -⟩ := render_eq_ok hrender
  have hsame : w₁.Prefixed (Utf8.encode cs) [] w₁ := .refl (htree ▸ hfree)
  obtain ⟨hcount, hcode⟩ := endsAlike_writeTexts_after hcs hsame
    ((p.withUsePrefix false).codeWrites job texts)
  rw [List.append_nil, ← writtenCode_of_ok hrender] at hcode
  have hexterns : (p.options.artifacts job.module.name).externs.location ∉ written :=
    location_place_notMem hnames hplaces .externs (by simp [ArtifactKind.IsCode])
  constructor
  · -- The places of the two lists of writes are the same.
    have hpaths (writes : List PlannedWrite) (k : Nat) :
        ((writes.map (PlannedWrite.after p.options.provenance)).take k).map (·.path.location) =
          (writes.take k).map (·.path.location) := by
      rw [← List.map_take, List.map_map]
      rfl
    rw [hwritten, writtenCode_of_ok hrender, writtenCode_of_ok hrender', ← hcount]
    exact hpaths ((p.withUsePrefix false).codeWrites job texts) _
  · refine (hcode.bind fun _ _ _ _ h => IgnoresPrefix.writeText hexterns _ h).bind
      fun _ w₂ w₂' hok h₂ => ?_
    rw [← writeTexts_concat (x := ⟨_, job.externs⟩)] at hok
    obtain ⟨-, -, hnew⟩ := writeTexts_ok hok
    exact endsAlike_finish (p := p) hnames hplaces h₂
      (hnew _ (List.mem_append_right _ List.mem_cons_self)) hother

/-- Switching the line on changes nothing of a build but the files that the line goes into: the
result, the announcements, the warnings and the name supplies are the same, and so are the trees but
for the source and the header of the module.  As far as these are written, they have the line in
front of what they hold without it. -/
theorem build_usePrefix (p : Project β γ ε) (job : Job β γ) (w : World)
    (hnames : p.options.HasDefaultNames) (htool : p.options.toolName.chars? ≠ none)
    (hversion : p.options.version.chars? ≠ none) (hfree : w.tree.IsLinkFree)
    (hother : p.ReadsOtherFiles job) :
    let places := p.options.artifacts job.module.name
    let off := (p.withUsePrefix false).build job w
    let on := (p.withUsePrefix true).build job w
    let written := (p.withUsePrefix false).writtenCode job w
    resultOf on = resultOf off ∧ (worldAfter on).log = (worldAfter off).log ∧
      (worldAfter on).ledger = (worldAfter off).ledger ∧
      (worldAfter on).supplies = (worldAfter off).supplies ∧
      (p.withUsePrefix true).writtenCode job w = written ∧
      (∀ q ∈ written, q = places.source.location ∨ q = places.header.location) ∧
      (resultOf off = .ok () → written = [places.source.location, places.header.location]) ∧
      ∃ cs, p.options.provenance.chars? = some cs ∧
        (worldAfter off).tree.Prefixed (Utf8.encode cs) written (worldAfter on).tree := by
  intro places off on written
  obtain ⟨cs, hcs⟩ := Options.exists_chars_provenance htool hversion
  obtain ⟨hwritten, hresult, hworlds⟩ := p.endsAlike_build job w hnames hcs hfree hother
  refine ⟨hresult, hworlds.log_eq, hworlds.ledger_eq, hworlds.supplies_eq, hwritten, ?_, ?_, cs,
    hcs, hworlds.tree⟩
  · intro q hq
    obtain ⟨kind, rfl | rfl, hlocation⟩ :=
      exists_kind_of_mem_writtenCode (p := p.withUsePrefix false) hq
    · exact .inl hlocation
    · exact .inr hlocation
  · intro hok
    rcases hoff : (p.withUsePrefix false).build job w with ⟨⟨⟩, w'⟩ | ⟨e, w'⟩
    · exact writtenCode_of_build hoff
    · rw [show off = .error e w' from hoff] at hok
      cases hok

end Project

/-- A world in which the header of the module cannot be written, since a directory stands at its
place. -/
def headerBlockedWorld : World where
  tree :=
    { entries := [(["output"], .dir), (["output", "A"], .dir), (["output", "A", "A.hh"], .dir)] }
  clock := ⟨1500000000, 0⟩

/-- The result for a build that fails between the source and the header: only the source has the
line. -/
theorem provenance_of_source :
    let off := (foreignProject.withUsePrefix false).build foreignJob headerBlockedWorld
    let on := (foreignProject.withUsePrefix true).build foreignJob headerBlockedWorld
    let source : Location := ["output", "A", "A.cc"]
    failureOf? off = some (.error (.cannotWriteFile "output/A/A.hh" (some "Is a directory"))) ∧
      resultOf on = resultOf off ∧
      (foreignProject.withUsePrefix false).writtenCode foreignJob headerBlockedWorld = [source] ∧
      ∃ cs, Text.chars? "// Generated by pcc version 0.7.0\n" = some cs ∧
        (worldAfter off).tree.Prefixed (Utf8.encode cs) [source] (worldAfter on).tree := by
  have hother : foreignProject.ReadsOtherFiles foreignJob := by
    rintro input files hinput hfiles kind (rfl | rfl)
    · cases hinput
      cases hfiles
      decide
    · cases hinput
      cases hfiles
      decide
  obtain ⟨hresult, -, -, -, -, -, -, cs, hcs, htree⟩ :=
    Project.build_usePrefix foreignProject foreignJob headerBlockedWorld
      ⟨rfl, rfl, rfl, rfl, rfl⟩ (by decide) (by decide) (Tree.isLinkFree_of_entries (by decide))
      hother
  have hwritten : (foreignProject.withUsePrefix false).writtenCode foreignJob headerBlockedWorld =
      [(["output", "A", "A.cc"] : Location)] := by
    decide +kernel
  have hline : foreignProject.options.provenance = "// Generated by pcc version 0.7.0\n" := by
    decide +kernel
  rw [hwritten] at htree
  exact ⟨by decide +kernel, hresult, hwritten, cs, hline ▸ hcs, htree⟩

/-- A project whose input file is in the output directory, next to the output of its module, and is
given by a path that takes a detour. -/
def detourProject : Project Json.Value Json.Value TemplateElement where
  options := {}
  inputs :=
    [(foreignJob.module.name, .path ⟨.relative, ["output", "..", "output", "A", "A.purs"]⟩)]
  generator := Template.twoLines.generator

/-- When the foreign files of a module are its generated source and header, the line gets into their
copies as well, even if their paths are not those of any generated file. -/
theorem foreign_input_inside_output :
    let places := (detourProject.options.artifacts foreignJob.module.name).place
    let input : Path := ⟨.relative, ["output", "..", "output", "A", "A.purs"]⟩
    let header : Path := ⟨.relative, ["output", "..", "output", "A", "A.hh"]⟩
    let source : Path := ⟨.relative, ["output", "..", "output", "A", "A.cc"]⟩
    let off := (detourProject.withUsePrefix false).build foreignJob foreignWorld
    let on := (detourProject.withUsePrefix true).build foreignJob foreignWorld
    detourProject.options = {} ∧ foreignWorld.tree.IsLinkFree ∧
      detourProject.inputs.lookupPath foreignJob.module.name = .ok input ∧
      detourProject.options.foreignFiles input = .ok ⟨header, source⟩ ∧
      (∀ kind, header ≠ places kind ∧ source ≠ places kind ∧ input ≠ places kind) ∧
      valueOf? off = some () ∧ valueOf? on = some () ∧
      ¬∀ q, q ≠ (places .source).location → q ≠ (places .header).location →
        (worldAfter on).tree.find? q = (worldAfter off).tree.find? q := by
  intro places input header source off on
  refine ⟨rfl, Tree.isLinkFree_of_entries (by decide), by decide, by decide, ?_, by decide +kernel,
    by decide +kernel, fun h => ?_⟩
  · rintro (_ | _ | _ | _ | _) <;> decide
  · have hcopy : (worldAfter on).tree.find? (places .foreignHeader).location =
        (worldAfter off).tree.find? (places .foreignHeader).location :=
      h _ (by decide) (by decide)
    revert hcopy
    decide +kernel

end ModuleBuild
