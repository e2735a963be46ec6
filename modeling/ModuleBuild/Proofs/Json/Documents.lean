import ModuleBuild.Proofs.Json.Grammar
import ModuleBuild.Proofs.Json.Objects

/-!
# What is written is read

Where the reader expects a part of a document and finds what writes it, it goes on behind the part
with the value, the items or the members that it has read, and on its way it has closed the objects
in them (`IsRead`).  This is proved by induction on how the part is written, for all open arrays and
objects at once; each step of the reader that comes up is a lemma of its own, and blanks in front of
what is expected change nothing (`readFrom_append`).

So what writes a value is a document, it is read as this value, and the objects in the value are
closed in their order (`read_of_writes`).
-/

namespace ModuleBuild.Json

/-! ### Steps of the reader -/

/-- No token starts with a blank. -/
lemma skipBlanks_of_nextToken? {s : List Char} {found : Token × List Char}
    (h : nextToken? s = some found) : skipBlanks s = s := by
  cases s with
  | nil => rfl
  | cons c s =>
    cases hc : isBlank c with
    | false =>
      rw [skipBlanks, List.dropWhile_cons, hc]
      rfl
    | true =>
      simp only [isBlank, Bool.or_eq_true, decide_eq_true_eq] at hc
      obtain ((rfl | rfl) | rfl) | rfl := hc <;> cases h

section Steps

variable {s rest : List Char} (frames : List Frame) (closed : List Members)

/-- The reader goes on after a word or a number. -/
lemma readFrom_atom {v : Value} (h : nextToken? s = some (.atom v, rest)) :
    readFrom s .value frames closed = readFrom rest (.afterValue v) frames closed := by
  rw [← skipBlanks_of_nextToken? h] at h
  rw [readFrom.eq_def]
  dsimp only
  split <;> simp_all

/-- The reader goes on after a string. -/
lemma readFrom_string {t : Text} (h : nextToken? s = some (.string t, rest)) :
    readFrom s .value frames closed = readFrom rest (.afterValue (.string t)) frames closed := by
  rw [← skipBlanks_of_nextToken? h] at h
  rw [readFrom.eq_def]
  dsimp only
  split <;> simp_all

/-- The first item of an array is a value, unless the array ends. -/
lemma readFrom_firstItem {token : Token} (h : nextToken? s = some (token, rest))
    (hclose : token ≠ .closeArray) :
    readFrom s .firstItem frames closed = readFrom s .value (.item [] :: frames) closed := by
  rw [readFrom.eq_def]
  dsimp only
  split
  · next hfound =>
    rw [skipBlanks_of_nextToken? h, h] at hfound
    cases hfound
    exact absurd rfl hclose
  · rfl

/-- A name is followed by a colon. -/
lemma readFrom_nextName {t : Text} (members : Members)
    (h : nextToken? s = some (.string t, rest)) :
    readFrom s (.nextName members) frames closed =
      readFrom rest (.colon members t) frames closed := by
  rw [← skipBlanks_of_nextToken? h] at h
  rw [readFrom.eq_def]
  dsimp only
  split <;> simp_all

/-- The first name of an object is read as the later ones are. -/
lemma readFrom_firstName {t : Text} (h : nextToken? s = some (.string t, rest)) :
    readFrom s .firstName frames closed = readFrom s (.nextName []) frames closed := by
  rw [readFrom_nextName frames closed [] h]
  rw [← skipBlanks_of_nextToken? h] at h
  rw [readFrom.eq_def]
  dsimp only
  split <;> simp_all

/-- A bracket opens an array. -/
lemma readFrom_openArray :
    readFrom ('[' :: s) .value frames closed = readFrom s .firstItem frames closed := by
  rw [readFrom.eq_def]
  rfl

/-- A bracket closes an array without items. -/
lemma readFrom_emptyArray :
    readFrom (']' :: s) .firstItem frames closed =
      readFrom s (.afterValue (.array [])) frames closed := by
  rw [readFrom.eq_def]
  rfl

/-- A comma stands between two items. -/
lemma readFrom_itemComma (v : Value) (items : List Value) :
    readFrom (',' :: s) (.afterValue v) (.item items :: frames) closed =
      readFrom s .value (.item (v :: items) :: frames) closed := by
  rw [readFrom.eq_def]
  rfl

/-- A bracket closes an array. -/
lemma readFrom_closeArray (v : Value) (items : List Value) :
    readFrom (']' :: s) (.afterValue v) (.item items :: frames) closed =
      readFrom s (.afterValue (.array (v :: items).reverse)) frames closed := by
  rw [readFrom.eq_def]
  rfl

/-- A brace opens an object. -/
lemma readFrom_openObject :
    readFrom ('\x7b' :: s) .value frames closed = readFrom s .firstName frames closed := by
  rw [readFrom.eq_def]
  rfl

/-- A brace closes an object without members. -/
lemma readFrom_emptyObject :
    readFrom ('\x7d' :: s) .firstName frames closed =
      readFrom s (.afterValue (.object [])) frames ([] :: closed) := by
  rw [readFrom.eq_def]
  rfl

/-- A colon stands between a name and its value. -/
lemma readFrom_colon (members : Members) (name : Text) :
    readFrom (':' :: s) (.colon members name) frames closed =
      readFrom s .value (.member members name :: frames) closed := by
  rw [readFrom.eq_def]
  rfl

/-- A comma stands between two members. -/
lemma readFrom_memberComma (v : Value) (members : Members) (name : Text) :
    readFrom (',' :: s) (.afterValue v) (.member members name :: frames) closed =
      readFrom s (.nextName ((name, v) :: members)) frames closed := by
  rw [readFrom.eq_def]
  rfl

/-- A brace closes an object. -/
lemma readFrom_closeObject (v : Value) (members : Members) (name : Text) :
    readFrom ('\x7d' :: s) (.afterValue v) (.member members name :: frames) closed =
      readFrom s (.afterValue (.object ((name, v) :: members).reverse)) frames
        (((name, v) :: members).reverse :: closed) := by
  rw [readFrom.eq_def]
  rfl

end Steps

/-- Blanks in front of what is expected are skipped. -/
lemma readFrom_append {b : List Char} (hb : AreBlanks b) (s : List Char) (expecting : Expecting)
    (frames : List Frame) (closed : List Members) :
    readFrom (b ++ s) expecting frames closed = readFrom s expecting frames closed := by
  have hskip : skipBlanks (b ++ s) = skipBlanks s := List.dropWhile_append_of_pos hb
  have hvalue (frames : List Frame) :
      readFrom (b ++ s) .value frames closed = readFrom s .value frames closed := by
    rw [readFrom.eq_def, readFrom.eq_def s]
    dsimp only
    rw [hskip]
  cases expecting with
  -- The first item of an array is expected again, as a value.
  | firstItem =>
    rw [readFrom.eq_def, readFrom.eq_def s]
    dsimp only
    rw [hskip, hvalue]
  | _ =>
    rw [readFrom.eq_def, readFrom.eq_def s]
    dsimp only
    rw [hskip]

/-- A document ends where only blanks follow. -/
lemma readFrom_blanks {b : List Char} (hb : AreBlanks b) (v : Value) (closed : List Members) :
    readFrom b (.afterValue v) [] closed = ⟨closed.reverse, .ok v⟩ := by
  have hskip : skipBlanks b = [] := List.dropWhile_eq_nil_iff.2 hb
  rw [readFrom.eq_def]
  simp only [hskip]

/-! ### What parts start with -/

/-- A value does not start as the end of an array does. -/
lemma Writes.exists_nextToken? {s rest : List Char} {v : Value} (h : Writes s (.value v))
    (hrest : EndsNumber rest) :
    ∃ token r, nextToken? (s ++ rest) = some (token, r) ∧ token ≠ .closeArray := by
  cases h with
  | atom h => exact ⟨_, _, nextToken?_of_writesAtom h hrest, nofun⟩
  | string h => exact ⟨_, _, nextToken?_of_writesString h rest, nofun⟩
  | emptyArray | array => exact ⟨.openArray, _, rfl, nofun⟩
  | emptyObject | object => exact ⟨.openObject, _, rfl, nofun⟩

/-- Items start with one, and a number ends behind it. -/
lemma Writes.exists_element {s : List Char} {vs : List Value} (h : Writes s (.items vs))
    (rest : List Char) :
    ∃ s' v r, Writes s' (.element v) ∧ EndsNumber r ∧ s ++ ']' :: rest = s' ++ r := by
  cases h with
  | lastItem h => exact ⟨s, _, ']' :: rest, h, endsNumber_cons (by decide) rest, rfl⟩
  | @nextItem s s' v vs h _ =>
    exact ⟨s, v, ',' :: (s' ++ ']' :: rest), h, endsNumber_cons (by decide) _, by simp⟩

/-- Members start with one. -/
lemma Writes.exists_member {s : List Char} {ms : Members} (h : Writes s (.members ms)) :
    ∃ s' name v r, Writes s' (.member name v) ∧ s = s' ++ r := by
  cases h with
  | lastMember h => exact ⟨s, _, _, [], h, (List.append_nil s).symm⟩
  | nextMember h _ => exact ⟨_, _, _, _, h, rfl⟩

/-- Before an item the reader does not find the end of the array. -/
lemma readFrom_firstItem_of_writes {s rest : List Char} {vs : List Value}
    (h : Writes s (.items vs)) (frames : List Frame) (closed : List Members) :
    readFrom (s ++ ']' :: rest) .firstItem frames closed =
      readFrom (s ++ ']' :: rest) .value (.item [] :: frames) closed := by
  obtain ⟨s', v, r, helement, hr, hs⟩ := h.exists_element rest
  rw [hs]
  cases helement with
  | element hb h hb' =>
    obtain ⟨token, r', htoken, hclose⟩ := h.exists_nextToken? (endsNumber_append hb' hr)
    simp only [List.append_assoc]
    rw [readFrom_append hb, readFrom_append hb]
    exact readFrom_firstItem frames closed htoken hclose

/-- Before a member the reader does not find the end of the object. -/
lemma readFrom_firstName_of_writes {s rest : List Char} {ms : Members}
    (h : Writes s (.members ms)) (frames : List Frame) (closed : List Members) :
    readFrom (s ++ rest) .firstName frames closed =
      readFrom (s ++ rest) (.nextName []) frames closed := by
  obtain ⟨s', name, v, r, hmember, rfl⟩ := h.exists_member
  cases hmember with
  | member hb hname =>
    simp only [List.append_assoc]
    rw [readFrom_append hb, readFrom_append hb]
    exact readFrom_firstName frames closed (nextToken?_of_writesString hname _)

/-! ### Reading parts -/

/-- Whether the reader, where it expects a part and finds `s`, goes on behind `s` with what it has
read, and has closed the objects in it. -/
def IsRead (s : List Char) : Part → Prop
  | .value v | .element v => ∀ rest frames closed, EndsNumber rest →
      readFrom (s ++ rest) .value frames closed =
        readFrom rest (.afterValue v) frames (v.objects.reverse ++ closed)
  | .items vs => ∀ items rest frames closed,
      readFrom (s ++ ']' :: rest) .value (.item items :: frames) closed =
        readFrom rest (.afterValue (.array (items.reverse ++ vs))) frames
          ((itemObjects vs).reverse ++ closed)
  | .member name v => ∀ members rest frames closed, EndsNumber rest →
      readFrom (s ++ rest) (.nextName members) frames closed =
        readFrom rest (.afterValue v) (.member members name :: frames)
          (v.objects.reverse ++ closed)
  | .members ms => ∀ members rest frames closed,
      readFrom (s ++ '\x7d' :: rest) (.nextName members) frames closed =
        readFrom rest (.afterValue (.object (members.reverse ++ ms))) frames
          ((members.reverse ++ ms) :: ((memberObjects ms).reverse ++ closed))

/-- What is written is read. -/
theorem isRead_of_writes {s : List Char} {part : Part} (h : Writes s part) : IsRead s part := by
  induction h with
  | atom h =>
    intro rest frames closed hrest
    have htoken := nextToken?_of_writesAtom h hrest
    rw [readFrom_atom frames closed htoken, objects_of_nextToken? htoken]
    rfl
  | string h =>
    intro rest frames closed _
    exact readFrom_string frames closed (nextToken?_of_writesString h rest)
  | emptyArray hb =>
    intro rest frames closed _
    simp only [List.cons_append, List.append_assoc, List.nil_append]
    rw [readFrom_openArray, readFrom_append hb]
    exact readFrom_emptyArray frames closed
  | array h ih =>
    intro rest frames closed _
    simp only [List.cons_append, List.append_assoc, List.nil_append]
    rw [readFrom_openArray, readFrom_firstItem_of_writes h]
    exact ih [] rest frames closed
  | emptyObject hb =>
    intro rest frames closed _
    simp only [List.cons_append, List.append_assoc, List.nil_append]
    rw [readFrom_openObject, readFrom_append hb]
    exact readFrom_emptyObject frames closed
  | object h ih =>
    intro rest frames closed _
    simp only [List.cons_append, List.append_assoc, List.nil_append]
    rw [readFrom_openObject, readFrom_firstName_of_writes h, ih [] rest frames closed]
    simp [Value.objects]
  | element hb _ hb' ih =>
    intro rest frames closed hrest
    simp only [List.append_assoc]
    rw [readFrom_append hb, ih _ _ _ (endsNumber_append hb' hrest), readFrom_append hb']
  | lastItem _ ih =>
    intro items rest frames closed
    rw [ih _ _ _ (endsNumber_cons (by decide) rest), readFrom_closeArray]
    simp [itemObjects]
  | nextItem _ _ ih ihs =>
    intro items rest frames closed
    rw [List.append_assoc, List.cons_append, ih _ _ _ (endsNumber_cons (by decide) _),
      readFrom_itemComma, ihs]
    simp [itemObjects]
  | member hb hname hb' _ ih =>
    intro members rest frames closed hrest
    have htoken := nextToken?_of_writesString hname
    simp only [List.append_assoc, List.cons_append]
    rw [readFrom_append hb, readFrom_nextName frames closed members (htoken _),
      readFrom_append hb', readFrom_colon, ih _ _ _ hrest]
  | lastMember _ ih =>
    intro members rest frames closed
    rw [ih _ _ _ _ (endsNumber_cons (by decide) rest), readFrom_closeObject]
    simp [memberObjects]
  | nextMember _ _ ih ihs =>
    intro members rest frames closed
    rw [List.append_assoc, List.cons_append, ih _ _ _ _ (endsNumber_cons (by decide) _),
      readFrom_memberComma, ihs]
    simp [memberObjects]

/-! ### Documents -/

/-- No value starts with a byte order mark, and no blank is one. -/
lemma Writes.ne_byteOrderMark {s : List Char} {v : Value} (h : Writes s (.element v))
    (r : List Char) : s ≠ '\ufeff' :: r := by
  cases h with
  | @element b s b' _ hb h hb' =>
    intro hmark
    cases b with
    | nil =>
      obtain ⟨token, r', htoken, -⟩ := h.exists_nextToken? (endsNumber_append hb' endsNumber_nil)
      simp only [List.nil_append, List.append_nil] at hmark htoken
      rw [hmark] at htoken
      cases htoken
    | cons c b =>
      obtain ⟨rfl, -⟩ := List.cons.inj hmark
      exact absurd (hb _ List.mem_cons_self) (by decide)

/-- What writes a value is a document that is read as the value, and the objects in it are closed in
their order. -/
theorem read_of_writes {s : List Char} {d : Value} (h : Writes s (.element d)) :
    read s = ⟨d.objects, .ok d⟩ := by
  have hread := isRead_of_writes h [] [] [] endsNumber_nil
  rw [List.append_nil] at hread
  rw [read]
  · rw [hread, readFrom_blanks areBlanks_nil, List.append_nil, List.reverse_reverse]
  · exact h.ne_byteOrderMark

end ModuleBuild.Json
