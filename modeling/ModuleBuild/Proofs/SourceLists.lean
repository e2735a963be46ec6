import ModuleBuild.Proofs.Json.Objects
import ModuleBuild.Proofs.NameGrammar
import ModuleBuild.Proofs.Utf8
import ModuleBuild.SourceList
import Mathlib.Data.List.Forall2
import Mathlib.Data.List.Nodup

/-!
# Which documents are source lists

What a source list is (`SourceList.IsSourceList`) and why a document is none (`SourceList.Refuses`)
are said without the functions that read it: as conditions on the fields of the document and on the
members of its modules.  A member has an entry, the module name and the input that it stands for
(`SourceList.EntryOf`), or it is refused (`SourceList.RefusesMember`), for its name before its
value; and the first member that is refused decides.

Of a document that was read no object repeats a name (`SourceList.nodup_of_document`), and different
texts are not read as the same module name.  So no entry is overwritten when the entries are
collected, and each of them can be registered afterwards.  This makes loading exact: a document that
is a source list is loaded as its entries, and any other is refused for the reason that the
conditions give (`SourceList.loadInputs_of_document`).
-/

namespace ModuleBuild

/-! ### Distinct names -/

/-- The next of several inputs of different modules is none of those before it. -/
lemma Inputs.find?_eq_none_of_nodup {inputs entries : Inputs} {x : ModuleName × Input}
    (hnodup : ((inputs ++ x :: entries).map Prod.fst).Nodup) : Table.find? x.1 inputs = none := by
  apply Table.find?_eq_none_of_notMem
  rw [List.map_append, List.nodup_append] at hnodup
  exact fun hmem => hnodup.2.2 _ hmem x.1 (by simp) rfl

namespace SourceList

/-- No name is repeated if the names differ from each other and from those seen before. -/
lemma repeatedAfter_eq_none_iff {seen ts : List Text} :
    repeatedAfter seen ts = none ↔ ts.Nodup ∧ ∀ t ∈ ts, t ∉ seen := by
  induction ts generalizing seen with
  | nil => simp [repeatedAfter]
  | cons t ts ih =>
    rw [repeatedAfter]
    split_ifs with hseen
    · simp [hseen]
    · rw [ih, List.nodup_cons]
      simp only [List.mem_cons, not_or, forall_eq_or_imp]
      constructor
      · rintro ⟨hnodup, hfresh⟩
        exact ⟨⟨fun ht => (hfresh t ht).1 rfl, hnodup⟩, hseen, fun u hu => (hfresh u hu).2⟩
      · rintro ⟨⟨ht, hnodup⟩, -, hfresh⟩
        exact ⟨hnodup, fun u hu => ⟨fun h => ht (h ▸ hu), hfresh u hu⟩⟩

/-- No name of an object is repeated if its names differ. -/
lemma repeatedName_eq_none_iff {members : Json.Members} :
    repeatedName members = none ↔ (members.map Prod.fst).Nodup := by
  simp [repeatedName, repeatedAfter_eq_none_iff]

/-- In a document that was read no object repeats a name. -/
lemma nodup_of_document {s : List Char} {d : Json.Value} (h : document s = .ok d)
    {members : Json.Members} (hmembers : members ∈ d.objects) : (members.map Prod.fst).Nodup := by
  unfold document at h
  dsimp only at h
  split at h
  · cases h
  · next hnone =>
    cases hresult : (Json.read s).result with
    | error fault =>
      rw [hresult] at h
      cases h
    | ok v =>
      rw [hresult] at h
      cases h
      rw [Json.closed_read hresult] at hnone
      exact repeatedName_eq_none_iff.1 (List.findSome?_eq_none_iff.1 hnone members hmembers)

/-! ### What a source list is -/

/-- Zero in one of its forms, or the false truth value. -/
inductive EqualsZero : Json.Value → Prop
  /-- The false truth value. -/
  | false : EqualsZero (.bool false)
  /-- The integer. -/
  | integer : EqualsZero (.number (.integer 0))
  /-- One of the two zeros of binary64. -/
  | real (negative : Bool) : EqualsZero (.number (.real negative 0))

/-- The input that a value stands for, in a source list in the directory `base`. -/
inductive StandsFor (base : Path) : Json.Value → Input → Prop
  /-- The path itself, if it is absolute. -/
  | absolute {t : Text} (hne : t ≠ []) (hanchor : (Path.ofText t).anchor ≠ .relative) :
      StandsFor base (.string t) (.path (.ofText t))
  /-- The path seen from the directory, if it is relative. -/
  | relative {t : Text} (hne : t ≠ []) (hanchor : (Path.ofText t).anchor = .relative) :
      StandsFor base (.string t) (.path ⟨base.anchor, base.parts ++ (Path.ofText t).parts⟩)
  /-- The policy in the field `rebuild`, if no field but `x` is beside it. -/
  | policy {members : Json.Members} {p : RebuildPolicy}
      (hfields : ∀ x ∈ members, x.1 ∈ inputFieldNames)
      (hrebuild : (Json.Value.object members).field? "rebuild" = some (.string p.text)) :
      StandsFor base (.object members) (.policy p)

/-- The name and the input that a member of the modules stands for. -/
structure EntryOf (base : Path) (x : Text × Json.Value) (y : ModuleName × Input) : Prop where
  /-- The name is read. -/
  name : ModuleName.parse x.1 = .ok y.1
  /-- The value is an input. -/
  input : StandsFor base x.2 y.2

/-- Whether a document is an object with the fields of a source list, the modules among them. -/
structure HasHeader (d : Json.Value) (modules : Json.Members) : Prop where
  /-- It names the format. -/
  format : d.field? "format" = some (.string "pcc-sources")
  /-- Its version is zero. -/
  version : ∃ v, d.field? "version" = some v ∧ EqualsZero v
  /-- It has no other fields. -/
  fields : ∀ members, d = .object members → ∀ x ∈ members, x.1 ∈ fieldNames
  /-- The modules are an object. -/
  modules : d.field? "modules" = some (.object modules)

/-- Whether a document is a source list in the directory `base`. -/
def IsSourceList (base : Path) (d : Json.Value) : Prop :=
  ∃ modules, HasHeader d modules ∧ ∀ x ∈ modules, ∃ y, EntryOf base x y

/-! ### Why a document is no source list -/

/-- Why a value is no input of the module `m`. -/
inductive RefusesInput (m : Text) : Json.Value → SourceListError → Prop
  /-- The path is empty. -/
  | emptyPath : RefusesInput m (.string []) (.emptyPath m)
  /-- There are other fields. -/
  | unknownFields {members : Json.Members} (h : ∃ x ∈ members, x.1 ∉ inputFieldNames) :
      RefusesInput m (.object members)
        (.unknownInputFields m (unknownNames inputFieldNames members))
  /-- The field `rebuild` is missing, or no policy. -/
  | unknownPolicy {members : Json.Members} (hfields : ∀ x ∈ members, x.1 ∈ inputFieldNames)
      (h : ∀ p : RebuildPolicy,
        (Json.Value.object members).field? "rebuild" ≠ some (.string p.text)) :
      RefusesInput m (.object members)
        (.unknownPolicy m (((Json.Value.object members).field? "rebuild").getD .null))
  /-- The value is neither a text nor an object. -/
  | other {v : Json.Value} (hstring : ∀ t, v ≠ .string t)
      (hobject : ∀ members, v ≠ .object members) :
      RefusesInput m v (.invalidInput m)

/-- Why a member of the modules is refused. -/
inductive RefusesMember : Text × Json.Value → SourceListError → Prop
  /-- Its name is no module name, whatever its value is. -/
  | name {m : Text} {v : Json.Value} {e : ModuleName.Error} (h : ModuleName.parse m = .error e) :
      RefusesMember (m, v) (.name e)
  /-- Its value is no input. -/
  | input {m : Text} {v : Json.Value} {name : ModuleName} {e : SourceListError}
      (hname : ModuleName.parse m = .ok name) (h : RefusesInput m v e) : RefusesMember (m, v) e

/-- Why a document is refused. -/
inductive Refuses (base : Path) (d : Json.Value) : SourceListError → Prop
  /-- It is no object. -/
  | notObject (h : ∀ members, d ≠ .object members) : Refuses base d .notObject
  /-- It is of another format or version. -/
  | unsupported {members : Json.Members} (hobject : d = .object members)
      (h : d.field? "format" = some (.string "pcc-sources") →
        ∀ v, d.field? "version" = some v → ¬EqualsZero v) : Refuses base d .unsupported
  /-- It has other fields. -/
  | unknownFields {members : Json.Members} {version : Json.Value} (hobject : d = .object members)
      (hformat : d.field? "format" = some (.string "pcc-sources"))
      (hversion : d.field? "version" = some version) (hzero : EqualsZero version)
      (h : ∃ x ∈ members, x.1 ∉ fieldNames) :
      Refuses base d (.unknownFields (unknownNames fieldNames members))
  /-- The modules are missing, or no object. -/
  | modulesNotObject {members : Json.Members} {version : Json.Value} (hobject : d = .object members)
      (hformat : d.field? "format" = some (.string "pcc-sources"))
      (hversion : d.field? "version" = some version) (hzero : EqualsZero version)
      (hfields : ∀ x ∈ members, x.1 ∈ fieldNames)
      (h : ∀ modules, d.field? "modules" ≠ some (.object modules)) :
      Refuses base d .modulesNotObject
  /-- A member of the modules is refused, and none before it. -/
  | member {before after : Json.Members} {x : Text × Json.Value} {e : SourceListError}
      (hheader : HasHeader d (before ++ x :: after)) (hbefore : ∀ z ∈ before, ∃ y, EntryOf base z y)
      (h : RefusesMember x e) : Refuses base d e

/-! ### Single values -/

/-- Zero is what equals the number zero. -/
lemma isZero_iff (v : Json.Value) : isZero v = true ↔ EqualsZero v := by
  constructor
  · intro h
    rcases v with _ | b | n | t | items | members
    case bool =>
      cases b
      · exact .false
      · cases h
    case number =>
      rcases n with n | ⟨negative, magnitude⟩ | negative | _
      · obtain rfl : n = 0 := by simpa [isZero, Json.Number.isZero] using h
        exact .integer
      · obtain rfl : magnitude = 0 := by simpa [isZero, Json.Number.isZero] using h
        exact .real negative
      · cases h
      · cases h
    all_goals cases h
  · rintro (_ | _ | negative) <;> rfl

/-- No name is unknown if all are known. -/
lemma unknownNames_eq_nil_iff {known : List Text} {members : Json.Members} :
    unknownNames known members = [] ↔ ∀ x ∈ members, x.1 ∈ known := by
  have hperm : (unknownNames known members).Perm ((members.map (·.1)).filter (· ∉ known)) :=
    List.mergeSort_perm _ _
  rw [← List.isEmpty_iff, hperm.isEmpty_eq, List.isEmpty_iff]
  simp

/-- Some name is unknown if not all are known. -/
lemma unknownNames_ne_nil {known : List Text} {members : Json.Members}
    (h : ∃ x ∈ members, x.1 ∉ known) : unknownNames known members ≠ [] := by
  obtain ⟨x, hx, hunknown⟩ := h
  exact fun hnil => hunknown (unknownNames_eq_nil_iff.1 hnil x hx)

/-- A policy is named by its word only. -/
lemma policy?_eq_some_iff {v : Json.Value} {p : RebuildPolicy} :
    policy? v = some p ↔ v = .string p.text := by
  constructor
  · intro h
    cases v with
    | string t =>
      simp only [policy?, RebuildPolicy.ofText?] at h
      split_ifs at h with hnever halways
      · cases h
        rw [hnever]
      · cases h
        rw [halways]
    | _ => cases h
  · rintro rfl
    exact RebuildPolicy.ofText?_text p

section Values

variable {base : Path} {m : Text} {v : Json.Value}

/-- The text of a path stands for it, as seen from the directory. -/
lemma input_string {t : Text} (hne : t ≠ []) :
    input base m (.string t) = .ok (.path (base.append (Path.ofText t))) := by
  rw [input, if_neg hne]
  rfl

/-- A value is read as the input that it stands for. -/
lemma StandsFor.input_eq {i : Input} (h : StandsFor base v i) : input base m v = .ok i := by
  cases h with
  | absolute hne hanchor =>
    rw [input_string hne, Path.append]
    split
    · contradiction
    · rfl
  | relative hne hanchor => rw [input_string hne, Path.append, hanchor]
  | policy hfields hrebuild =>
    rw [input, if_neg (not_not.2 (unknownNames_eq_nil_iff.2 hfields)), hrebuild, Option.getD_some,
      policy?_eq_some_iff.2 rfl]

/-- A value is refused as it has to be. -/
lemma RefusesInput.input_eq {e : SourceListError} (h : RefusesInput m v e) :
    input base m v = .error e := by
  cases h with
  | emptyPath => rfl
  | unknownFields h =>
    rw [input, if_pos (unknownNames_ne_nil h)]
  | @unknownPolicy members hfields h =>
    have hpolicy : policy? (((Json.Value.object members).field? "rebuild").getD .null) = none := by
      cases hfield : (Json.Value.object members).field? "rebuild" with
      | none => rfl
      | some v =>
        rw [Option.getD_some, Option.eq_none_iff_forall_ne_some]
        intro p hp
        exact h p (hfield.trans (congrArg some (policy?_eq_some_iff.1 hp)))
    rw [input, if_neg (not_not.2 (unknownNames_eq_nil_iff.2 hfields)), hpolicy]
  | other hstring hobject =>
    cases v with
    | string t => exact absurd rfl (hstring t)
    | object members => exact absurd rfl (hobject members)
    | _ => rfl

variable (base m v) in
/-- A value stands for an input or is refused. -/
lemma standsFor_or_refuses : (∃ i, StandsFor base v i) ∨ ∃ e, RefusesInput m v e := by
  cases v with
  | string t =>
    by_cases ht : t = []
    · subst ht
      exact .inr ⟨_, .emptyPath⟩
    · by_cases hanchor : (Path.ofText t).anchor = .relative
      · exact .inl ⟨_, .relative ht hanchor⟩
      · exact .inl ⟨_, .absolute ht hanchor⟩
  | object members =>
    by_cases hfields : ∀ x ∈ members, x.1 ∈ inputFieldNames
    · by_cases hrebuild : ∃ p : RebuildPolicy,
        (Json.Value.object members).field? "rebuild" = some (.string p.text)
      · obtain ⟨p, hp⟩ := hrebuild
        exact .inl ⟨_, .policy hfields hp⟩
      · exact .inr ⟨_, .unknownPolicy hfields (not_exists.1 hrebuild)⟩
    · simp only [not_forall] at hfields
      obtain ⟨x, hx, hunknown⟩ := hfields
      exact .inr ⟨_, .unknownFields ⟨x, hx, hunknown⟩⟩
  | _ => exact .inr ⟨_, .other (by rintro _ ⟨⟩) (by rintro _ ⟨⟩)⟩

end Values

/-! ### The members of the modules -/

/-- The entries so far and that of one more member. -/
def collect (base : Path) (entries : Inputs) (x : Text × Json.Value) :
    Except SourceListError Inputs := do
  let name ← (ModuleName.parse x.1).mapError .name
  pure (entries.insert name (← input base x.1 x.2))

/-- Members are collected one after another. -/
lemma entries_eq (base : Path) (modules : Json.Members) :
    entries base modules = modules.foldlM (collect base) [] := rfl

section Members

variable {base : Path} {x : Text × Json.Value} {modules : Json.Members} {ys : Inputs}

/-- The entry of a member is collected. -/
lemma EntryOf.collect_eq {y : ModuleName × Input} (h : EntryOf base x y) (entries : Inputs) :
    collect base entries x = .ok (entries.insert y.1 y.2) := by
  simp only [collect, h.name, h.input.input_eq]
  rfl

/-- At a member that is refused collecting ends. -/
lemma RefusesMember.collect_eq {e : SourceListError} (h : RefusesMember x e) (entries : Inputs) :
    collect base entries x = .error e := by
  cases h with
  | name h =>
    simp only [collect, h]
    rfl
  | input hname h =>
    simp only [collect, hname, h.input_eq]
    rfl

variable (base x) in
/-- A member has an entry or is refused. -/
lemma entryOf_or_refuses : (∃ y, EntryOf base x y) ∨ ∃ e, RefusesMember x e := by
  obtain ⟨m, v⟩ := x
  cases hname : ModuleName.parse m with
  | error e => exact .inr ⟨_, .name hname⟩
  | ok name =>
    rcases standsFor_or_refuses base m v with ⟨i, hi⟩ | ⟨e, he⟩
    · exact .inl ⟨(name, i), hname, hi⟩
    · exact .inr ⟨e, .input hname he⟩

/-- Members with entries have a list of them. -/
lemma exists_forall₂ (h : ∀ x ∈ modules, ∃ y, EntryOf base x y) :
    ∃ ys, List.Forall₂ (EntryOf base) modules ys := by
  induction modules with
  | nil => exact ⟨[], .nil⟩
  | cons x modules ih =>
    obtain ⟨y, hy⟩ := h x List.mem_cons_self
    obtain ⟨ys, hys⟩ := ih fun z hz => h z (List.mem_cons_of_mem x hz)
    exact ⟨y :: ys, .cons hy hys⟩

/-- All members have entries, or there is a first one that is refused. -/
lemma exists_entries_or_refused (base : Path) (modules : Json.Members) :
    (∀ x ∈ modules, ∃ y, EntryOf base x y) ∨
      ∃ before x after e, modules = before ++ x :: after ∧
        (∀ z ∈ before, ∃ y, EntryOf base z y) ∧ RefusesMember x e := by
  induction modules with
  | nil => exact .inl (by simp)
  | cons x modules ih =>
    rcases entryOf_or_refuses base x with hx | ⟨e, he⟩
    · rcases ih with hall | ⟨before, z, after, e, hsplit, hbefore, he⟩
      · exact .inl (List.forall_mem_cons.2 ⟨hx, hall⟩)
      · exact .inr ⟨x :: before, z, after, e, congrArg (x :: ·) hsplit,
          List.forall_mem_cons.2 ⟨hx, hbefore⟩, he⟩
    · exact .inr ⟨[], x, modules, e, rfl, by simp, he⟩

/-- The names of the entries are those that the members have as texts. -/
lemma map_text_of_forall₂ (h : List.Forall₂ (EntryOf base) modules ys) :
    (ys.map Prod.fst).map ModuleName.text = modules.map Prod.fst := by
  induction h with
  | nil => rfl
  | cons hy _ ih =>
    rw [List.map_cons, List.map_cons, List.map_cons, ih, ModuleName.text_of_parse hy.name]

/-- Members with different names have entries with different names. -/
lemma nodup_of_forall₂ (hnodup : (modules.map Prod.fst).Nodup)
    (h : List.Forall₂ (EntryOf base) modules ys) : (ys.map Prod.fst).Nodup := by
  rw [← map_text_of_forall₂ h] at hnodup
  exact hnodup.of_map _

/-- Entries with different names are collected in order, and none of them is overwritten. -/
lemma foldlM_collect {entries : Inputs} (hnodup : ((entries ++ ys).map Prod.fst).Nodup)
    (h : List.Forall₂ (EntryOf base) modules ys) :
    modules.foldlM (collect base) entries = .ok (entries ++ ys) := by
  induction h generalizing entries with
  | nil =>
    rw [List.append_nil]
    rfl
  | @cons x y modules ys hy _ ih =>
    rw [List.foldlM_cons, hy.collect_eq,
      Table.insert_of_find?_eq_none (Inputs.find?_eq_none_of_nodup hnodup)]
    change modules.foldlM (collect base) (entries ++ [y]) = _
    rw [ih (by simpa using hnodup), List.append_assoc]
    rfl

/-- Members with different names are collected as their entries. -/
lemma entries_of_forall₂ (hnodup : (modules.map Prod.fst).Nodup)
    (h : List.Forall₂ (EntryOf base) modules ys) : entries base modules = .ok ys := by
  rw [entries_eq]
  exact foldlM_collect (nodup_of_forall₂ hnodup h) h

/-- The first member that is refused decides why all of them are. -/
lemma entries_of_refused {before after : Json.Members} {e : SourceListError}
    (hnodup : ((before ++ x :: after).map Prod.fst).Nodup)
    (hbefore : ∀ z ∈ before, ∃ y, EntryOf base z y) (h : RefusesMember x e) :
    entries base (before ++ x :: after) = .error e := by
  obtain ⟨ys, hys⟩ := exists_forall₂ hbefore
  have hcollected : before.foldlM (collect base) [] = .ok ys := by
    rw [List.map_append] at hnodup
    exact entries_of_forall₂ hnodup.of_append_left hys
  rw [entries_eq, List.foldlM_append, hcollected]
  change List.foldlM (collect base) ys (x :: after) = _
  rw [List.foldlM_cons, h.collect_eq]
  rfl

end Members

end SourceList

/-! ### Registering what was collected -/

/-- A path without empty parts has a text. -/
lemma Path.text_ne_nil {p : Path} (h : [] ∉ p.parts) : p.text ≠ [] := by
  obtain ⟨anchor, parts⟩ := p
  cases anchor with
  | relative =>
    cases parts with
    | nil => exact List.cons_ne_nil _ _
    | cons part parts =>
      have hpart : part ≠ [] := fun hpart => h (hpart ▸ List.mem_cons_self)
      cases parts <;> simp [text, Anchor.text, Text.join, hpart, Text.ofString, Text.ofChars]
  | root => exact List.cons_ne_nil _ _
  | doubleRoot => exact List.cons_ne_nil _ _

/-- A path that was read has no empty parts. -/
lemma Path.nil_notMem_ofText (t : Text) : [] ∉ (Path.ofText t).parts := fun h => by
  simpa [isPart] using (List.mem_filter.1 h).2

/-- Inputs of different modules can be registered, if each of them can be an input. -/
lemma Inputs.foldlM_register {inputs entries : Inputs}
    (hnodup : ((inputs ++ entries).map Prod.fst).Nodup)
    (hentry : ∀ x ∈ entries, x.2.entry.input? = some x.2) :
    (entries.map fun (m, input) => (InputKey.name m, input.entry)).foldlM
        (fun inputs e => Inputs.register inputs e.1 e.2) inputs = .ok (inputs ++ entries) := by
  induction entries generalizing inputs with
  | nil =>
    rw [List.append_nil]
    rfl
  | cons x entries ih =>
    have hfind : Table.find? x.1 inputs = none := find?_eq_none_of_nodup hnodup
    have hregister : Inputs.register inputs (.name x.1) x.2.entry = .ok (inputs ++ [x]) := by
      rw [← Table.insert_of_find?_eq_none hfind x.2]
      simp only [Inputs.register, InputKey.moduleName, hentry x List.mem_cons_self]
      change (if (Table.find? x.1 inputs).isSome = true then _ else _) = _
      rw [hfind]
      rfl
    rw [List.map_cons, List.foldlM_cons, hregister]
    change List.foldlM _ (inputs ++ [x]) _ = _
    rw [ih (by simpa using hnodup) fun y hy => hentry y (List.mem_cons_of_mem x hy),
      List.append_assoc]
    rfl

namespace SourceList

section Registering

variable {base : Path} (hbase : [] ∉ base.parts)

include hbase

/-- What a value stands for can be an input. -/
lemma StandsFor.input?_entry {v : Json.Value} {i : Input} (h : StandsFor base v i) :
    i.entry.input? = some i := by
  have hpath {p : Path} (hp : [] ∉ p.parts) : (Input.path p).entry.input? = some (.path p) :=
    if_neg (Path.text_ne_nil hp)
  cases h with
  | absolute => exact hpath (Path.nil_notMem_ofText _)
  | relative => exact hpath (by simp [hbase, Path.nil_notMem_ofText])
  | policy => rfl

/-- Everything that was collected is registered. -/
lemma ofEntries_of_forall₂ {modules : Json.Members} {ys : Inputs}
    (hnodup : (modules.map Prod.fst).Nodup) (h : List.Forall₂ (EntryOf base) modules ys) :
    Inputs.ofEntries (ys.map fun (m, input) => (.name m, input.entry)) = .ok ys := by
  apply Inputs.foldlM_register (nodup_of_forall₂ hnodup h)
  clear hnodup
  induction h with
  | nil => simp
  | cons hy _ ih => exact List.forall_mem_cons.2 ⟨hy.input.input?_entry hbase, ih⟩

/-- Members with different names are read as their entries. -/
lemma inputs_of_forall₂ {modules : Json.Members} {ys : Inputs}
    (hnodup : (modules.map Prod.fst).Nodup) (h : List.Forall₂ (EntryOf base) modules ys) :
    inputs base modules = .ok ys := by
  rw [inputs, entries_of_forall₂ hnodup h]
  change (Inputs.ofEntries _).mapError _ = _
  rw [ofEntries_of_forall₂ hbase hnodup h]
  rfl

end Registering

/-! ### Documents -/

section Documents

variable {base : Path} {d : Json.Value}

/-- The object in a field is one of the document's objects. -/
lemma mem_objects_of_field? {key : Text} {modules : Json.Members}
    (h : d.field? key = some (.object modules)) : modules ∈ d.objects := by
  cases d with
  | object members =>
    obtain ⟨before, after, hsplit, -⟩ := List.lookup_eq_some_iff.1 h
    have hmem : (key, Json.Value.object modules) ∈ members := by simp [hsplit]
    rw [Json.Value.objects, List.mem_append]
    refine .inl (Json.mem_memberObjects.2 ⟨_, hmem, ?_⟩)
    rw [Json.Value.objects]
    exact List.mem_append_right _ List.mem_cons_self
  | _ => cases h

/-- What is asked of the format and the version of a document. -/
lemma supported_iff :
    ((d.field? "format").any isFormat && (d.field? "version").any isZero) = true ↔
      d.field? "format" = some (.string "pcc-sources") ∧
        ∃ v, d.field? "version" = some v ∧ EqualsZero v := by
  have hformat (v : Json.Value) : isFormat v = true ↔ v = .string "pcc-sources" := by
    cases v <;> simp [isFormat]
  rw [Bool.and_eq_true]
  apply and_congr
  · cases d.field? "format" <;> simp [hformat]
  · cases d.field? "version" <;> simp [isZero_iff]

/-- Of another format or version nothing else is looked at. -/
lemma ofDocument_of_unsupported {members : Json.Members} (hobject : d = .object members)
    (h : d.field? "format" = some (.string "pcc-sources") →
      ∀ v, d.field? "version" = some v → ¬EqualsZero v) :
    ofDocument base d = .error .unsupported := by
  subst hobject
  rw [ofDocument, if_pos]
  rw [Bool.not_eq_true', ← Bool.not_eq_true, supported_iff]
  rintro ⟨hformat, v, hversion, hzero⟩
  exact h hformat v hversion hzero

/-- Of the right format and version the fields are looked at, and then the modules. -/
lemma ofDocument_of_supported {members : Json.Members} (hobject : d = .object members)
    (hformat : d.field? "format" = some (.string "pcc-sources"))
    (hversion : ∃ v, d.field? "version" = some v ∧ EqualsZero v) :
    ofDocument base d =
      if unknownNames fieldNames members ≠ [] then
        .error (.unknownFields (unknownNames fieldNames members))
      else
        match d.field? "modules" with
        | some (.object modules) => inputs base modules
        | _ => .error .modulesNotObject := by
  have hsupported := supported_iff.2 ⟨hformat, hversion⟩
  subst hobject
  rw [ofDocument, hsupported]
  rfl

/-- Behind the right header the modules decide. -/
lemma HasHeader.ofDocument_eq {modules : Json.Members} (h : HasHeader d modules) :
    ofDocument base d = inputs base modules := by
  cases hd : d with
  | object members =>
    rw [← hd, ofDocument_of_supported hd h.format h.version,
      if_neg (not_not.2 (unknownNames_eq_nil_iff.2 (h.fields members hd))), h.modules]
  | _ =>
    rw [hd] at h
    cases h.format

/-- A document is refused as it has to be, if none of its objects repeats a name. -/
lemma Refuses.ofDocument_eq (hunique : ∀ members ∈ d.objects, (members.map Prod.fst).Nodup)
    {e : SourceListError} (h : Refuses base d e) : ofDocument base d = .error e := by
  cases h with
  | notObject h =>
    cases d with
    | object members => exact absurd rfl (h members)
    | _ => rfl
  | unsupported hobject h => exact ofDocument_of_unsupported hobject h
  | unknownFields hobject hformat hversion hzero h =>
    rw [ofDocument_of_supported hobject hformat ⟨_, hversion, hzero⟩,
      if_pos (unknownNames_ne_nil h)]
  | modulesNotObject hobject hformat hversion hzero hfields h =>
    rw [ofDocument_of_supported hobject hformat ⟨_, hversion, hzero⟩,
      if_neg (not_not.2 (unknownNames_eq_nil_iff.2 hfields))]
    split
    · next modules hmodules => exact absurd hmodules (h modules)
    · rfl
  | member hheader hbefore h =>
    rw [hheader.ofDocument_eq, inputs,
      entries_of_refused (hunique _ (mem_objects_of_field? hheader.modules)) hbefore h]
    rfl

/-- A document is a source list or refused. -/
lemma isSourceList_or_refuses (base : Path) (d : Json.Value) :
    IsSourceList base d ∨ ∃ e, Refuses base d e := by
  cases hd : d with
  | object members =>
    rw [← hd]
    by_cases hsupported : d.field? "format" = some (.string "pcc-sources") ∧
      ∃ v, d.field? "version" = some v ∧ EqualsZero v
    · obtain ⟨hformat, version, hversion, hzero⟩ := hsupported
      by_cases hfields : ∀ x ∈ members, x.1 ∈ fieldNames
      · by_cases hmodules : ∃ modules, d.field? "modules" = some (.object modules)
        · obtain ⟨modules, hmodules⟩ := hmodules
          have hheader : HasHeader d modules :=
            ⟨hformat, ⟨version, hversion, hzero⟩, by
              intro members' hd'
              obtain rfl := Json.Value.object.inj (hd.symm.trans hd')
              exact hfields, hmodules⟩
          rcases exists_entries_or_refused base modules with
            hall | ⟨before, x, after, e, hsplit, hbefore, he⟩
          · exact .inl ⟨modules, hheader, hall⟩
          · exact .inr ⟨e, .member (hsplit ▸ hheader) hbefore he⟩
        · exact .inr
            ⟨_, .modulesNotObject hd hformat hversion hzero hfields (not_exists.1 hmodules)⟩
      · simp only [not_forall] at hfields
        obtain ⟨x, hx, hunknown⟩ := hfields
        exact .inr ⟨_, .unknownFields hd hformat hversion hzero ⟨x, hx, hunknown⟩⟩
    · exact .inr ⟨_, .unsupported hd fun hformat v hversion hzero =>
        hsupported ⟨hformat, v, hversion, hzero⟩⟩
  | _ => exact .inr ⟨_, .notObject (by rintro _ ⟨⟩)⟩

end Documents

end SourceList

/-- Whether the file at a path is read as a document in which no object repeats a name. -/
def Tree.ReadsDocument (t : Tree) (path : Path) (d : Json.Value) : Prop :=
  ∃ bytes cs, t.readFile path = .ok bytes ∧ Utf8.decode bytes = .ok cs ∧
    SourceList.document (SourceList.unifyNewlines cs) = .ok d

/-- When a document was read, it decides what is loaded. -/
lemma Tree.ReadsDocument.loadInputs_eq {t : Tree} {path : Path} {d : Json.Value}
    (h : t.ReadsDocument path d) :
    t.loadInputs path = (SourceList.ofDocument path.parent d).mapError .content := by
  obtain ⟨bytes, cs, hread, hdecode, hdocument⟩ := h
  have hbytes : SourceList.ofBytes path.parent bytes = SourceList.ofDocument path.parent d := by
    rw [SourceList.ofBytes, hdecode]
    change (SourceList.document (SourceList.unifyNewlines cs) >>= _) = _
    rw [hdocument]
    rfl
  rw [loadInputs, hread]
  change (SourceList.ofBytes path.parent bytes).mapError _ = _
  rw [hbytes]

/-- A document that was read is loaded if and only if it is a source list.  The inputs are then the
entries of the modules' members, in their order and with different names; otherwise the document is
refused as it has to be.  What was collected from the members can always be registered. -/
theorem SourceList.loadInputs_of_document {t : Tree} {source : Text} {d : Json.Value}
    (hdocument : t.ReadsDocument (.ofText source) d) :
    let base := (Path.ofText source).parent
    ((∃ inputs, t.loadInputs (.ofText source) = .ok inputs) ↔ IsSourceList base d) ∧
      (∀ inputs, t.loadInputs (.ofText source) = .ok inputs →
        ∃ modules, d.field? "modules" = some (.object modules) ∧
          List.Forall₂ (EntryOf base) modules inputs ∧ (inputs.map Prod.fst).Nodup) ∧
      (∀ e, t.loadInputs (.ofText source) = .error e ↔
        ∃ fault, e = .content fault ∧ Refuses base d fault) ∧
      ∀ modules entries, d.field? "modules" = some (.object modules) →
        SourceList.entries base modules = .ok entries →
          Inputs.ofEntries (entries.map fun (m, input) => (.name m, input.entry)) =
            .ok entries := by
  intro base
  have hbase : [] ∉ base.parts := fun h =>
    Path.nil_notMem_ofText source (List.dropLast_subset _ h)
  obtain ⟨_, _, -, -, hread⟩ := id hdocument
  have hunique : ∀ members ∈ d.objects, (members.map Prod.fst).Nodup := fun _ =>
    nodup_of_document hread
  rw [hdocument.loadInputs_eq]
  -- The document is a source list, and then its entries are the inputs, or it is refused.
  have hsource {modules : Json.Members} (hheader : HasHeader d modules)
      (hentries : ∀ x ∈ modules, ∃ y, EntryOf base x y) :
      ∃ ys, List.Forall₂ (EntryOf base) modules ys ∧ (ys.map Prod.fst).Nodup ∧
        ofDocument base d = .ok ys := by
    obtain ⟨ys, hys⟩ := exists_forall₂ hentries
    have hnodup := hunique modules (mem_objects_of_field? hheader.modules)
    exact ⟨ys, hys, nodup_of_forall₂ hnodup hys,
      hheader.ofDocument_eq.trans (inputs_of_forall₂ hbase hnodup hys)⟩
  refine ⟨⟨?_, ?_⟩, ?_, fun e => ⟨?_, ?_⟩, ?_⟩
  · rintro ⟨inputs, hload⟩
    rcases isSourceList_or_refuses base d with h | ⟨fault, hfault⟩
    · exact h
    · rw [hfault.ofDocument_eq hunique] at hload
      cases hload
  · rintro ⟨modules, hheader, hentries⟩
    obtain ⟨ys, -, -, hys⟩ := hsource hheader hentries
    exact ⟨ys, by rw [hys]; rfl⟩
  · intro inputs hload
    rcases isSourceList_or_refuses base d with ⟨modules, hheader, hentries⟩ | ⟨fault, hfault⟩
    · obtain ⟨ys, hforall, hnodup, hys⟩ := hsource hheader hentries
      rw [hys] at hload
      cases hload
      exact ⟨modules, hheader.modules, hforall, hnodup⟩
    · rw [hfault.ofDocument_eq hunique] at hload
      cases hload
  · intro hload
    rcases isSourceList_or_refuses base d with ⟨modules, hheader, hentries⟩ | ⟨fault, hfault⟩
    · obtain ⟨ys, -, -, hys⟩ := hsource hheader hentries
      rw [hys] at hload
      cases hload
    · rw [hfault.ofDocument_eq hunique] at hload
      cases hload
      exact ⟨fault, rfl, hfault⟩
  · rintro ⟨fault, rfl, hfault⟩
    rw [hfault.ofDocument_eq hunique]
    rfl
  · intro modules entries hmodules hentries
    have hnodup := hunique modules (mem_objects_of_field? hmodules)
    rcases exists_entries_or_refused base modules with
      hall | ⟨before, x, after, e, rfl, hbefore, he⟩
    · obtain ⟨ys, hys⟩ := exists_forall₂ hall
      obtain rfl := Except.ok.inj (hentries.symm.trans (entries_of_forall₂ hnodup hys))
      exact ofEntries_of_forall₂ hbase hnodup hys
    · rw [entries_of_refused hnodup hbefore he] at hentries
      cases hentries

/-! ### A document with three faults -/

/-- The text of a source list, in which the second module has no name and no input, and the third no
path. -/
def misnamedText : String :=
  "\x7b\"format\": \"pcc-sources\", \"version\": -0.0,
    \"modules\": \x7b\"A\": \"a\", \"B-\": 3, \"C\": \"\"\x7d\x7d"

/-- The members of its modules. -/
def misnamedModules : Json.Members :=
  [("A", .string "a"), ("B-", .number (.integer 3)), ("C", .string "")]

/-- The document. -/
def misnamedDocument : Json.Value :=
  .object [("format", .string "pcc-sources"), ("version", .number (.real true 0)),
    ("modules", .object misnamedModules)]

/-- A tree with the text in a file. -/
def misnamedTree : Tree where
  entries :=
    [(["list"], .dir),
      (["list", "sources.json"], .file (Utf8.encode misnamedText.toList) ⟨1400000000, 0⟩)]

/-- Of three faults that of the first member decides, and of the two in it that of the name. -/
theorem misnamed_module_decides :
    misnamedTree.ReadsDocument (.ofText "list/sources.json") misnamedDocument ∧
      misnamedTree.loadInputs (.ofText "list/sources.json") =
        .error (.content (.name (.malformed "B-" 2))) := by
  have hdocument : misnamedTree.ReadsDocument (.ofText "list/sources.json") misnamedDocument :=
    ⟨Utf8.encode misnamedText.toList, misnamedText.toList, by decide +kernel,
      Utf8.decode_encode _, by with_unfolding_all rfl⟩
  have hheader : SourceList.HasHeader misnamedDocument
      (misnamedModules.take 1 ++ (Text.ofString "B-", .number (.integer 3)) ::
        misnamedModules.drop 2) :=
    ⟨rfl, ⟨_, rfl, .real true⟩, by rintro _ ⟨⟩; decide, rfl⟩
  have hbefore : ∀ x ∈ misnamedModules.take 1,
      ∃ y, SourceList.EntryOf (Path.ofText "list/sources.json").parent x y := by
    rintro x hx
    obtain rfl := List.mem_singleton.1 hx
    exact ⟨(⟨["A"], by decide, by decide⟩, _), rfl, .relative (by decide) (by decide)⟩
  have hname : ModuleName.parse "B-" = .error (.malformed "B-" 2) := rfl
  obtain ⟨-, -, herror, -⟩ := SourceList.loadInputs_of_document hdocument
  exact ⟨hdocument, (herror _).2 ⟨_, rfl, .member hheader hbefore (.name hname)⟩⟩

end ModuleBuild
