import ModuleBuild.Proofs.LineEnds
import ModuleBuild.Proofs.SourceLists

/-!
# Repeated names in source lists

Whether an object of a document repeats a name is looked at where the object is closed, before
anything is asked of the document.  For every file whose text is a document in the sense of the
grammar (`Json.Writes`), loading fails for a repeated name if and only if an object at any depth
repeats one (`Json.Value.Holds`), and the name it tells is the first repetition in the first such
object in the order of the closing braces (`SourceList.FirstRepeats`).

All other reasons to refuse a document come later, and none of them has the same wording
(`SourceList.Refuses.message_ne`).  So a document without repeated names is loaded as its entries,
one for each member of the modules, or refused for one of those (`SourceList.ofDocument_cases`).
-/

namespace ModuleBuild

/-! ### Objects at any depth -/

namespace Json

/-- Which objects are in a value, at any depth. -/
inductive Value.Holds : Value → Members → Prop
  /-- An object itself. -/
  | object {ms : Members} : Holds (.object ms) ms
  /-- What is in an item of an array. -/
  | item {vs : List Value} {v : Value} {ms : Members} (hv : v ∈ vs) (h : Holds v ms) :
      Holds (.array vs) ms
  /-- What is in the value of a member of an object. -/
  | member {members : Members} {name : Text} {v : Value} {ms : Members}
      (hv : (name, v) ∈ members) (h : Holds v ms) : Holds (.object members) ms

/-- The listed objects are in the value. -/
lemma Value.holds_of_mem_objects {v : Value} {ms : Members} (h : ms ∈ v.objects) :
    v.Holds ms := by
  match v with
  | .array vs =>
    obtain ⟨w, hw, hms⟩ := mem_itemObjects.1 h
    exact .item hw (holds_of_mem_objects hms)
  | .object members =>
    rcases List.mem_append.1 h with hmembers | hself
    · obtain ⟨⟨name, w⟩, hw, hms⟩ := mem_memberObjects.1 hmembers
      have hsize : sizeOf w < sizeOf members := by
        have hpair := List.sizeOf_lt_of_mem hw
        simp only [Prod.mk.sizeOf_spec] at hpair
        omega
      exact .member hw (holds_of_mem_objects hms)
    · obtain rfl := List.mem_singleton.1 hself
      exact .object
termination_by sizeOf v

/-- The objects in a value are those that are listed in the order of their closing braces. -/
lemma Value.mem_objects_iff {v : Value} {ms : Members} : ms ∈ v.objects ↔ v.Holds ms := by
  refine ⟨holds_of_mem_objects, fun h => ?_⟩
  induction h with
  | object => exact List.mem_append_right _ (List.mem_singleton_self _)
  | item hv _ ih => exact mem_itemObjects.2 ⟨_, hv, ih⟩
  | member hv _ ih => exact List.mem_append_left _ (mem_memberObjects.2 ⟨_, hv, ih⟩)

end Json

namespace SourceList

/-! ### The first repetition -/

/-- Whether `key` is the first name of an object that repeats an earlier one. -/
def Repeats (members : Json.Members) (key : Text) : Prop :=
  ∃ before after, members.map Prod.fst = before ++ key :: after ∧ before.Nodup ∧ key ∈ before

/-- Whether the first of several objects that repeats a name at all repeats `key` first. -/
def FirstRepeats (objects : List Json.Members) (key : Text) : Prop :=
  ∃ before members after, objects = before ++ members :: after ∧
    (∀ o ∈ before, (o.map Prod.fst).Nodup) ∧ Repeats members key

/-- A name is found at its first repetition. -/
lemma repeatedAfter_eq_some_iff {seen ts : List Text} {key : Text} :
    repeatedAfter seen ts = some key ↔ ∃ before after, ts = before ++ key :: after ∧
      before.Nodup ∧ (∀ t ∈ before, t ∉ seen) ∧ (key ∈ before ∨ key ∈ seen) := by
  induction ts generalizing seen with
  | nil => simp [repeatedAfter]
  | cons t ts ih =>
    rw [repeatedAfter]
    split_ifs with hseen
    · constructor
      · rintro ⟨⟩
        exact ⟨[], ts, rfl, List.nodup_nil, by simp, .inr hseen⟩
      · rintro ⟨before, after, hsplit, -, hfresh, -⟩
        cases before with
        | nil => rw [(List.cons.inj hsplit).1]
        | cons u before =>
          obtain ⟨rfl, -⟩ := List.cons.inj hsplit
          exact absurd hseen (hfresh t List.mem_cons_self)
    · rw [ih]
      constructor
      · rintro ⟨before, after, rfl, hnodup, hfresh, hkey⟩
        have ht : t ∉ before := fun hmem => hfresh t hmem List.mem_cons_self
        refine ⟨t :: before, after, rfl, List.nodup_cons.2 ⟨ht, hnodup⟩, ?_, ?_⟩
        · exact List.forall_mem_cons.2
            ⟨hseen, fun u hu hmem => hfresh u hu (List.mem_cons_of_mem t hmem)⟩
        · simpa [or_assoc, or_left_comm] using hkey
      · rintro ⟨before, after, hsplit, hnodup, hfresh, hkey⟩
        cases before with
        | nil =>
          obtain ⟨rfl, -⟩ := List.cons.inj hsplit
          exact absurd (hkey.resolve_left List.not_mem_nil) hseen
        | cons u before =>
          obtain ⟨rfl, rfl⟩ := List.cons.inj hsplit
          obtain ⟨ht, hnodup⟩ := List.nodup_cons.1 hnodup
          refine ⟨before, after, rfl, hnodup, fun u hu hmem => ?_, ?_⟩
          · rcases List.mem_cons.1 hmem with rfl | hmem
            · exact ht hu
            · exact hfresh u (List.mem_cons_of_mem t hu) hmem
          · simpa [or_assoc, or_left_comm] using hkey

/-- The name that is found in an object is its first repetition. -/
lemma repeatedName_eq_some_iff {members : Json.Members} {key : Text} :
    repeatedName members = some key ↔ Repeats members key := by
  simp [repeatedName, repeatedAfter_eq_some_iff, Repeats]

/-- The name that is found in several objects is their first repetition. -/
lemma findSome?_eq_some_iff {objects : List Json.Members} {key : Text} :
    objects.findSome? repeatedName = some key ↔ FirstRepeats objects key := by
  simp only [List.findSome?_eq_some_iff, repeatedName_eq_some_iff, repeatedName_eq_none_iff,
    FirstRepeats]
  constructor
  · rintro ⟨before, members, after, hsplit, hkey, hbefore⟩
    exact ⟨before, members, after, hsplit, hbefore, hkey⟩
  · rintro ⟨before, members, after, hsplit, hbefore, hkey⟩
    exact ⟨before, members, after, hsplit, hkey, hbefore⟩

/-- There is a first repetition if some object repeats a name. -/
lemma exists_firstRepeats_iff {objects : List Json.Members} :
    (∃ key, FirstRepeats objects key) ↔ ∃ members ∈ objects, ¬(members.map Prod.fst).Nodup := by
  have hnone : objects.findSome? repeatedName = none ↔
      ∀ members ∈ objects, (members.map Prod.fst).Nodup := by
    simp only [List.findSome?_eq_none_iff, repeatedName_eq_none_iff]
  simp only [← findSome?_eq_some_iff, ← Option.isSome_iff_exists, ← Option.ne_none_iff_isSome,
    ne_eq, hnone, not_forall, exists_prop]

/-! ### Other reasons -/

/-- The wording for a repeated name. -/
def repetitionText (key : Text) : Text := "source list has duplicate key '" ++ key ++ "'"

section Reasons

variable {base : Path} {d : Json.Value} {e : SourceListError} (key : Text)

/-- A member is not refused with the wording for a repeated name. -/
lemma RefusesMember.message_ne {x : Text × Json.Value} (h : RefusesMember x e) :
    e.message ≠ repetitionText key := by
  intro hmessage
  -- After "source list" the wordings differ in the next letter.
  have hletter := congrArg (fun t : Text => t[12]?) hmessage
  cases h with
  | name => cases hletter
  | input _ h => cases h <;> cases hletter

/-- Nor is a document. -/
lemma Refuses.message_ne (h : Refuses base d e) : e.message ≠ repetitionText key := by
  intro hmessage
  -- The wording for unknown fields is the same up to "source list has".
  have hletter := congrArg (fun t : Text => t[16]?) hmessage
  cases h with
  | member _ _ h => exact h.message_ne key hmessage
  | _ => cases hletter

/-- The wording tells the name. -/
lemma repetitionText_inj {key key' : Text} :
    repetitionText key = repetitionText key' ↔ key = key' := by
  simp [repetitionText]

end Reasons

/-! ### Loading -/

/-- A document is read as its value, unless a name is repeated. -/
lemma document_of_writes {s : List Char} {d : Json.Value} (h : Json.Writes s (.element d)) :
    document (unifyNewlines s) = match d.objects.findSome? repeatedName with
      | some key => .error (.duplicateKey key)
      | none => .ok d := by
  rw [document, Json.read_of_writes (writes_unifyNewlines h)]
  rfl

/-- Without repeated names a document is its entries or is refused. -/
lemma ofDocument_cases {base : Path} {d : Json.Value} (hbase : [] ∉ base.parts)
    (hunique : ∀ members ∈ d.objects, (members.map Prod.fst).Nodup) :
    (∃ modules inputs, d.field? "modules" = some (.object modules) ∧
      List.Forall₂ (EntryOf base) modules inputs ∧ ofDocument base d = .ok inputs) ∨
      ∃ e, Refuses base d e ∧ ofDocument base d = .error e := by
  rcases isSourceList_or_refuses base d with ⟨modules, hheader, hentries⟩ | ⟨e, he⟩
  · obtain ⟨inputs, hinputs⟩ := exists_forall₂ hentries
    have hnodup := hunique modules (mem_objects_of_field? hheader.modules)
    exact .inl ⟨modules, inputs, hheader.modules, hinputs,
      hheader.ofDocument_eq.trans (inputs_of_forall₂ hbase hnodup hinputs)⟩
  · exact .inr ⟨e, he, he.ofDocument_eq hunique⟩

section Loading

variable {t : Tree} {source : Text} {bytes : List UInt8} {s : List Char} {d : Json.Value}

/-- A file whose text is a document is refused for the first repetition of a name, or no name is
repeated, and then it is loaded as its entries or refused for another reason. -/
lemma loadInputs_cases (hfile : t.readFile (.ofText source) = .ok bytes)
    (hbytes : Utf8.decode bytes = .ok s) (hd : Json.Writes s (.element d)) :
    (∃ key, FirstRepeats d.objects key ∧
        t.loadInputs (.ofText source) = .error (.content (.duplicateKey key))) ∨
      (∀ key, ¬FirstRepeats d.objects key) ∧
        ((∃ modules inputs, d.field? "modules" = some (.object modules) ∧
            List.Forall₂ (EntryOf (Path.ofText source).parent) modules inputs ∧
            t.loadInputs (.ofText source) = .ok inputs) ∨
          ∃ e, Refuses (Path.ofText source).parent d e ∧
            t.loadInputs (.ofText source) = .error (.content e)) := by
  cases hfind : d.objects.findSome? repeatedName with
  | some key =>
    refine .inl ⟨key, findSome?_eq_some_iff.1 hfind, ?_⟩
    have hdocument := document_of_writes hd
    rw [hfind] at hdocument
    rw [Tree.loadInputs, hfile]
    change (ofBytes _ bytes).mapError _ = _
    rw [ofBytes, hbytes]
    change ((document (unifyNewlines s) >>= _).mapError _) = _
    rw [hdocument]
    rfl
  | none =>
    have hdocument := document_of_writes hd
    rw [hfind] at hdocument
    have hload := Tree.ReadsDocument.loadInputs_eq ⟨bytes, s, hfile, hbytes, hdocument⟩
    have hunique : ∀ members ∈ d.objects, (members.map Prod.fst).Nodup := by
      simpa [repeatedName_eq_none_iff] using hfind
    have hbase : [] ∉ (Path.ofText source).parent.parts := fun h =>
      Path.nil_notMem_ofText source (List.dropLast_subset _ h)
    refine .inr ⟨fun key hkey => ?_, ?_⟩
    · rw [← findSome?_eq_some_iff, hfind] at hkey
      cases hkey
    · rcases ofDocument_cases hbase hunique with ⟨modules, inputs, hmodules, hinputs, hok⟩ |
        ⟨e, he, herror⟩
      · exact .inl ⟨modules, inputs, hmodules, hinputs, by rw [hload, hok]; rfl⟩
      · exact .inr ⟨e, he, by rw [hload, herror]; rfl⟩

/-- Of a file whose text is a document, loading fails for a repeated name if and only if an object
repeats one, at any depth and whatever else is wrong with the document.  The error tells the first
repetition in the first such object in the order of the closing braces, and no other error has its
wording.  Whatever is loaded has an entry for every member of the modules. -/
theorem loadInputs_of_repetition (hfile : t.readFile (.ofText source) = .ok bytes)
    (hbytes : Utf8.decode bytes = .ok s) (hd : Json.Writes s (.element d)) :
    ((∃ key, t.loadInputs (.ofText source) = .error (.content (.duplicateKey key))) ↔
        ∃ ms, d.Holds ms ∧ ¬(ms.map Prod.fst).Nodup) ∧
      (∀ key, t.loadInputs (.ofText source) = .error (.content (.duplicateKey key)) ↔
        FirstRepeats d.objects key) ∧
      (∀ e key, t.loadInputs (.ofText source) = .error (.content e) →
        (e.message = "source list has duplicate key '" ++ key ++ "'" ↔ e = .duplicateKey key)) ∧
      ∀ inputs, t.loadInputs (.ofText source) = .ok inputs →
        ∃ modules, d.field? "modules" = some (.object modules) ∧
          List.Forall₂ (EntryOf (Path.ofText source).parent) modules inputs := by
  have hfirst (key : Text) :
      t.loadInputs (.ofText source) = .error (.content (.duplicateKey key)) ↔
        FirstRepeats d.objects key := by
    rcases loadInputs_cases hfile hbytes hd with ⟨key₀, hkey₀, hload⟩ |
      ⟨hnone, ⟨_, _, -, -, hload⟩ | ⟨e, he, hload⟩⟩
    · rw [hload]
      constructor
      · rintro ⟨⟩
        exact hkey₀
      · intro hkey
        rw [← findSome?_eq_some_iff] at hkey hkey₀
        rw [Option.some.inj (hkey₀.symm.trans hkey)]
    · rw [hload]
      exact ⟨nofun, fun hkey => absurd hkey (hnone key)⟩
    · rw [hload]
      refine ⟨?_, fun hkey => absurd hkey (hnone key)⟩
      rintro ⟨⟩
      exact absurd rfl (he.message_ne key)
  refine ⟨?_, hfirst, ?_, ?_⟩
  · simp only [hfirst, exists_firstRepeats_iff, Json.Value.mem_objects_iff]
  · intro e key hload
    refine ⟨fun hmessage => ?_, by rintro rfl; rfl⟩
    rcases loadInputs_cases hfile hbytes hd with ⟨key₀, -, hload₀⟩ |
      ⟨-, ⟨_, _, -, -, hload₀⟩ | ⟨e₀, he₀, hload₀⟩⟩
    · rw [hload₀] at hload
      cases hload
      rw [repetitionText_inj.1 hmessage]
    · rw [hload₀] at hload
      cases hload
    · rw [hload₀] at hload
      cases hload
      exact absurd hmessage (he₀.message_ne key)
  · intro inputs hload
    rcases loadInputs_cases hfile hbytes hd with ⟨_, -, hload₀⟩ |
      ⟨-, ⟨modules, _, hmodules, hinputs, hload₀⟩ | ⟨_, -, hload₀⟩⟩
    · rw [hload₀] at hload
      cases hload
    · rw [hload₀] at hload
      cases hload
      exact ⟨modules, hmodules, hinputs⟩
    · rw [hload₀] at hload
      cases hload

end Loading

end SourceList

/-! ### A document with two repetitions -/

/-- The text of a document in which both objects repeat a name, the inner one by an escape. -/
def repeatingText : String :=
  "\x7b\"x\":[\x7b\"a\":0,\r\n\"\\u0061\":1\x7d],\"x\":0\x7d"

/-- The document. -/
def repeatingDocument : Json.Value :=
  .object [("x", .array [.object [("a", .number (.integer 0)), ("a", .number (.integer 1))]]),
    ("x", .number (.integer 0))]

/-- A tree with the text in a file. -/
def repeatingTree : Tree where
  entries :=
    [(["list"], .dir),
      (["list", "sources.json"], .file (Utf8.encode repeatingText.toList) ⟨1400000000, 0⟩)]

/-- The text writes the document. -/
lemma writes_repeatingText : Json.Writes repeatingText.toList (.element repeatingDocument) := by
  have hnone := Json.areBlanks_nil
  have hbreak : Json.AreBlanks ['\r', '\n'] := by simp [Json.AreBlanks, Json.isBlank]
  have hstring {s : List Char} {c : Char} (hc : Json.WritesPoint s (.scalar c)) :
      Json.WritesString ('"' :: (s ++ [] ++ ['"'])) [.scalar c] := .quoted (.cons hc .nil)
  have hx : Json.WritesPoint ['x'] (.scalar 'x') := .plain (by decide) (by decide) (by decide)
  have ha : Json.WritesPoint ['a'] (.scalar 'a') := .plain (by decide) (by decide) (by decide)
  have hescape : Json.WritesPoint ['\\', 'u', '0', '0', '6', '1'] (.scalar 'a') := .numeric rfl
  have hdigit {c : Char} (hc : c.isDigit = true) :
      Json.Writes [c] (.element (.number (.integer (Json.digitsValue [c])))) := by
    have hds : Json.IsWhole [c] := ⟨⟨by simp, by simpa using hc⟩, by simp⟩
    have hsign : ([], false) ∈ Json.signs := by decide
    exact (Json.Writes.atom (.integer hsign hds (by simp [Numeral.maxDigits]))).bare
  have hzero := hdigit (show '0'.isDigit = true from rfl)
  have hone := hdigit (show '1'.isDigit = true from rfl)
  have hinner := Json.Writes.object (.nextMember (.member hnone (hstring ha) hnone hzero)
    (.lastMember (.member hbreak (hstring hescape) hnone hone)))
  have harray := Json.Writes.array (.lastItem hinner.bare)
  exact (Json.Writes.object (.nextMember (.member hnone (hstring hx) hnone harray.bare)
    (.lastMember (.member hnone (hstring hx) hnone hzero)))).bare

/-- The inner object is closed first, and the name it repeats is told. -/
theorem loadInputs_repeatingTree :
    Json.Writes repeatingText.toList (.element repeatingDocument) ∧
      repeatingTree.loadInputs (.ofText "list/sources.json") =
        .error (.content (.duplicateKey "a")) := by
  have hfile : repeatingTree.readFile (.ofText "list/sources.json") =
      .ok (Utf8.encode repeatingText.toList) := by decide +kernel
  obtain ⟨-, hfirst, -⟩ := SourceList.loadInputs_of_repetition hfile (Utf8.decode_encode _)
    writes_repeatingText
  exact ⟨writes_repeatingText,
    (hfirst _).2 ⟨[], _, _, rfl, by simp, ["a"], [], rfl, by simp, by simp⟩⟩

end ModuleBuild
