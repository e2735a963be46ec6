import ModuleBuild.Proofs.ModulePaths

/-!
# The grammar of module names

A name is a row of segments with dots between them.  It can be read in one go, by splitting the text
at its dots (`ModuleName.parse`), or token by token, with the longest segment at each place and an
end at the first token that may not stand there (`ModuleName.readTokens`).  Both accept the same
texts and find the same segments, and both blame the same column of a text that they refuse
(`ModuleName.map_segments_parse`).

That column can be told from the names alone: it is the first with which no name goes on, or the
last one if the text is the beginning of a name (`ModuleName.parse_inverse_of_text`).
-/

namespace ModuleBuild

/-- The form `[A-Za-z_][A-Za-z0-9_']*` of a segment. -/
def HasSegmentForm (s : Text) : Prop :=
  ∃ c cs, s = Text.ofChars (c :: cs) ∧
    (('A' ≤ c ∧ c ≤ 'Z') ∨ ('a' ≤ c ∧ c ≤ 'z') ∨ c = '_') ∧
    ∀ d ∈ cs, ('A' ≤ d ∧ d ≤ 'Z') ∨ ('a' ≤ d ∧ d ≤ 'z') ∨ ('0' ≤ d ∧ d ≤ '9') ∨ d = '_' ∨ d = '\''

/-- Code points that may stand in a segment are characters of these kinds. -/
lemma exists_chars_of_all {t : Text} (h : t.all isSegmentRest = true) :
    ∃ cs, t = Text.ofChars cs ∧
      ∀ d ∈ cs, ('A' ≤ d ∧ d ≤ 'Z') ∨ ('a' ≤ d ∧ d ≤ 'z') ∨ ('0' ≤ d ∧ d ≤ '9') ∨ d = '_' ∨
        d = '\'' := by
  induction t with
  | nil => exact ⟨[], rfl, by simp⟩
  | cons c t ih =>
    rw [List.all_cons, Bool.and_eq_true] at h
    obtain ⟨cs, rfl, hcs⟩ := ih h.2
    cases c with
    | surrogate n => cases h.1
    | scalar c =>
      refine ⟨c :: cs, rfl, fun d hd => ?_⟩
      rcases List.mem_cons.1 hd with rfl | hd
      · exact (isSegmentRest_scalar d).1 h.1
      · exact hcs d hd

/-- The texts of that form are the segments. -/
lemma isSegment_iff {s : Text} : isSegment s = true ↔ HasSegmentForm s := by
  constructor
  · intro h
    cases s with
    | nil => cases h
    | cons c s =>
      rw [isSegment, Bool.and_eq_true] at h
      obtain ⟨cs, rfl, hcs⟩ := exists_chars_of_all h.2
      cases c with
      | surrogate n => cases h.1
      | scalar c => exact ⟨c, cs, rfl, (isSegmentStart_scalar c).1 h.1, hcs⟩
  · rintro ⟨c, cs, rfl, hc, hcs⟩
    simp only [Text.ofChars, List.map_cons, isSegment, List.all_map, Bool.and_eq_true,
      List.all_eq_true, Function.comp_apply]
    exact ⟨(isSegmentStart_scalar c).2 hc, fun d hd => (isSegmentRest_scalar d).2 (hcs d hd)⟩

namespace ModuleName

/-! ### Names and texts -/

/-- The text of a name is split into its segments. -/
lemma split_text (m : ModuleName) : m.text.split (.scalar '.') = m.segments :=
  Text.split_join m.segments_ne_nil fun _ hs => m.isDotless_of_mem hs

/-- Module names are told apart by their texts. -/
theorem text_injective : Function.Injective text := by
  intro m m' h
  refine ext_segments ?_
  rw [← split_text m, ← split_text m', h]

/-- The text of a name has a segment, so it is not empty. -/
lemma text_ne_nil (m : ModuleName) : m.text ≠ [] := by
  intro h
  have hsegments := m.split_text
  rw [h] at hsegments
  have hnil : isSegment [] = true := m.isSegment_of_mem [] (hsegments ▸ List.mem_singleton_self _)
  cases hnil

/-- A text whose pieces are segments is that of a name. -/
lemma exists_of_split {t : Text} (h : ∀ s ∈ t.split (.scalar '.'), isSegment s = true) :
    ∃ m : ModuleName, m.text = t :=
  ⟨⟨t.split (.scalar '.'), split_ne_nil _ t, h⟩, Text.join_split _ t⟩

/-- A text that is not empty is read as the name with its pieces for segments, or a column of it is
blamed. -/
lemma parse_cases {t : Text} (ht : t ≠ []) :
    (∃ m : ModuleName, parse t = .ok m ∧ m.segments = t.split (.scalar '.') ∧ m.text = t) ∨
      (¬∀ s ∈ t.split (.scalar '.'), isSegment s = true) ∧
        parse t = .error (.malformed t (faultColumn t)) := by
  rw [parse, if_neg ht]
  by_cases h : ∀ s ∈ t.split (.scalar '.'), isSegment s = true
  · rw [dif_pos h]
    exact .inl ⟨_, rfl, rfl, Text.join_split _ t⟩
  · rw [dif_neg h]
    exact .inr ⟨h, rfl⟩

/-- The text of a name is read as the name. -/
lemma parse_text (m : ModuleName) : parse m.text = .ok m := by
  rcases parse_cases m.text_ne_nil with ⟨m', hparse, -, htext⟩ | ⟨hnot, -⟩
  · rw [hparse, text_injective htext]
  · rw [split_text] at hnot
    exact absurd m.isSegment_of_mem hnot

/-- Different texts are not read as the same name. -/
lemma text_of_parse {t : Text} {m : ModuleName} (h : parse t = .ok m) : m.text = t := by
  have ht : t ≠ [] := by
    rintro rfl
    cases h
  rcases parse_cases ht with ⟨m', hparse, -, htext⟩ | ⟨-, hparse⟩ <;> rw [hparse] at h <;> cases h
  exact htext

/-! ### Beginnings of names -/

/-- Whether a text is the rest of a name, from a place on at which a segment has to start, or from
one inside of a segment. -/
def endsName (start : Bool) : Text → Bool
  | [] => !start
  | c :: t =>
    if start then isSegmentStart c && endsName false t
    else if c = .scalar '.' then endsName true t
    else isSegmentRest c && endsName false t

/-- The rest of a name is split into the rest of a segment and segments. -/
lemma endsName_iff {start : Bool} {t piece : Text} {pieces : List Text}
    (hpieces : t.split (.scalar '.') = piece :: pieces) :
    endsName start t = true ↔
      (if start then isSegment piece = true else piece.all isSegmentRest = true) ∧
        ∀ s ∈ pieces, isSegment s = true := by
  induction t generalizing start piece pieces with
  | nil =>
    cases hpieces
    cases start <;> simp [endsName, isSegment]
  | cons c t ih =>
    obtain ⟨piece', pieces', hpieces'⟩ :=
      List.exists_cons_of_ne_nil (split_ne_nil (.scalar '.') t)
    rw [Text.split, hpieces'] at hpieces
    rw [endsName]
    by_cases hdot : c = .scalar '.'
    · rw [if_pos hdot] at hpieces
      cases hpieces
      cases start <;> simp [hdot, ih hpieces', isSegment, isSegmentStart]
    · rw [if_neg hdot] at hpieces
      cases hpieces
      cases start <;> simp [hdot, ih hpieces', isSegment, and_assoc]

/-- From the start on, the rest of a name is a name. -/
lemma endsName_true_iff {t : Text} :
    endsName true t = true ↔ ∀ s ∈ t.split (.scalar '.'), isSegment s = true := by
  obtain ⟨piece, pieces, hpieces⟩ := List.exists_cons_of_ne_nil (split_ne_nil (.scalar '.') t)
  rw [endsName_iff hpieces, hpieces, List.forall_mem_cons, if_pos rfl]

/-- Whether some name begins with a text. -/
def IsBeginning (t : Text) : Prop := ∃ m : ModuleName, t <+: m.text

/-- A beginning can be completed to a name. -/
lemma isBeginning_iff {t : Text} : IsBeginning t ↔ ∃ rest, endsName true (t ++ rest) = true := by
  constructor
  · rintro ⟨m, rest, hrest⟩
    refine ⟨rest, endsName_true_iff.2 ?_⟩
    rw [hrest, split_text]
    exact m.isSegment_of_mem
  · rintro ⟨rest, h⟩
    obtain ⟨m, hm⟩ := exists_of_split (endsName_true_iff.1 h)
    exact ⟨m, rest, hm.symm⟩

lemma viableLength_le (start : Bool) (t : Text) : viableLength start t ≤ t.length := by
  induction t generalizing start with
  | nil => exact Nat.le_refl _
  | cons c t ih =>
    rw [viableLength, List.length_cons]
    have htrue := ih true
    have hfalse := ih false
    split_ifs <;> omega

/-- The viable part of a text can be completed. -/
lemma exists_endsName_take (start : Bool) (t : Text) :
    ∃ rest, endsName start (t.take (viableLength start t) ++ rest) = true := by
  have hnil (start : Bool) : ∃ rest, endsName start ([] ++ rest) = true := by
    cases start
    · exact ⟨[], rfl⟩
    · exact ⟨"A", by decide⟩
  induction t generalizing start with
  | nil => exact hnil start
  | cons c t ih =>
    rw [viableLength]
    split_ifs with hstart hc hdot hc
    · obtain ⟨rest, hrest⟩ := ih false
      exact ⟨rest, by simpa [endsName, hstart, hc] using hrest⟩
    · exact hnil start
    · obtain ⟨rest, hrest⟩ := ih true
      exact ⟨rest, by simpa [endsName, hstart, hdot] using hrest⟩
    · obtain ⟨rest, hrest⟩ := ih false
      exact ⟨rest, by simpa [endsName, hstart, hdot, hc] using hrest⟩
    · exact hnil start

/-- No longer part of a text can be completed. -/
lemma length_le_viableLength {start : Bool} {t p : Text} (hp : p <+: t) {rest : Text}
    (h : endsName start (p ++ rest) = true) : p.length ≤ viableLength start t := by
  induction p generalizing start t with
  | nil => exact Nat.zero_le _
  | cons c p ih =>
    obtain ⟨t, rfl⟩ := hp
    rw [List.cons_append, endsName] at h
    rw [List.cons_append, viableLength, List.length_cons]
    have hp : p <+: p ++ t := List.prefix_append p t
    split_ifs at h with hstart hdot
    · rw [Bool.and_eq_true] at h
      rw [if_pos hstart, if_pos h.1]
      exact Nat.succ_le_succ (ih hp h.2)
    · rw [if_neg hstart, if_pos hdot]
      exact Nat.succ_le_succ (ih hp h)
    · rw [Bool.and_eq_true] at h
      rw [if_neg hstart, if_neg hdot, if_pos h.1]
      exact Nat.succ_le_succ (ih hp h.2)

/-- Whether a text is the longest beginning of a name that another text starts with. -/
structure IsLongestBeginning (p t : Text) : Prop where
  /-- The other text starts with it. -/
  isPrefix : p <+: t
  /-- Some name begins with it. -/
  isBeginning : IsBeginning p
  /-- None begins with a longer part of the other text. -/
  length_le : ∀ q, q <+: t → IsBeginning q → q.length ≤ p.length

/-- The viable part of a text is its longest beginning of a name. -/
lemma isLongestBeginning_take (t : Text) :
    IsLongestBeginning (t.take (viableLength true t)) t where
  isPrefix := List.take_prefix _ _
  isBeginning := isBeginning_iff.2 (exists_endsName_take true t)
  length_le q hq hbegins := by
    obtain ⟨rest, hrest⟩ := isBeginning_iff.1 hbegins
    rw [List.length_take, Nat.min_eq_left (viableLength_le true t)]
    exact length_le_viableLength hq hrest

/-- A text is viable all through if some name begins with it. -/
lemma viableLength_eq_length_iff {t : Text} : viableLength true t = t.length ↔ IsBeginning t := by
  constructor
  · intro h
    have hbegins := (isLongestBeginning_take t).isBeginning
    rwa [h, List.take_length] at hbegins
  · intro h
    obtain ⟨rest, hrest⟩ := isBeginning_iff.1 h
    exact Nat.le_antisymm (viableLength_le true t)
      (length_le_viableLength List.prefix_rfl hrest)

/-! ### Reading by tokens -/

/-- The tokens of a name. -/
inductive Token where
  /-- A segment. -/
  | segment (s : Text)
  /-- A dot. -/
  | dot
deriving DecidableEq, Repr

/-- The longest token that a text starts with, and what follows it. -/
def nextToken? : Text → Option (Token × Text)
  | [] => none
  | c :: t =>
    if c = .scalar '.' then some (.dot, t)
    else if isSegmentStart c then
      some (.segment (c :: t.takeWhile isSegmentRest), t.dropWhile isSegmentRest)
    else none

/-- A token takes a code point at least. -/
lemma length_nextToken? {t rest : Text} {token : Token} (h : nextToken? t = some (token, rest)) :
    rest.length < t.length := by
  unfold nextToken? at h
  split at h
  · cases h
  · next c t =>
    split_ifs at h
    · cases h
      exact Nat.lt_succ_self _
    · cases h
      exact Nat.lt_succ_of_le (List.dropWhile_suffix _).length_le

/-- The segments that a text is read as, token by token from a column on, or the column of the first
token that may not stand where it does.  At the end of the text there is no such token, and the last
one is blamed, which stands at the column `last`. -/
def readTokens (start : Bool) (last column : Nat) (t : Text) : Except Nat (List Text) :=
  match _h : nextToken? t with
  | some (.segment s, rest) =>
    if start then (s :: ·) <$> readTokens false column (column + s.length) rest
    else .error column
  | some (.dot, rest) =>
    if start then .error column else readTokens true column (column + 1) rest
  | none => if t = [] then (if start then .error last else .ok []) else .error column
termination_by t.length
decreasing_by all_goals exact length_nextToken? _h

/-! ### Tokens and beginnings -/

/-- What a token is that a text starts with.  A segment is as long as it can be. -/
lemma nextToken?_eq_segment {t s rest : Text} (h : nextToken? t = some (.segment s, rest)) :
    t = s ++ rest ∧ isSegment s = true ∧ ∀ c, rest.head? = some c → isSegmentRest c = false := by
  unfold nextToken? at h
  split at h
  · cases h
  · next c t =>
    split_ifs at h with hdot hc
    · cases h
    · simp only [Option.some.injEq, Prod.mk.injEq, Token.segment.injEq] at h
      obtain ⟨rfl, rfl⟩ := h
      refine ⟨by rw [List.cons_append, List.takeWhile_append_dropWhile], ?_, fun d hd => ?_⟩
      · simp only [isSegment, hc, List.all_takeWhile, Bool.true_and]
      · have hstop := List.head?_dropWhile_not isSegmentRest t
        rw [hd] at hstop
        exact hstop

/-- A dot is a token of its own. -/
lemma nextToken?_eq_dot {t rest : Text} (h : nextToken? t = some (.dot, rest)) :
    t = .scalar '.' :: rest := by
  unfold nextToken? at h
  split at h
  · cases h
  · split_ifs at h with hdot hc
    · cases h
      rw [hdot]
    · cases h

/-- Nothing else is a token. -/
lemma nextToken?_eq_none {c : CodePoint} {t : Text} (h : nextToken? (c :: t) = none) :
    c ≠ .scalar '.' ∧ isSegmentStart c = false := by
  unfold nextToken? at h
  dsimp only at h
  split_ifs at h with hdot hc
  exact ⟨hdot, by simpa using hc⟩

/-- Inside of a segment, more of it can be skipped. -/
lemma skip_rest {piece : Text} (h : piece.all isSegmentRest = true) (t : Text) :
    endsName false (piece ++ t) = endsName false t ∧
      viableLength false (piece ++ t) = piece.length + viableLength false t := by
  induction piece with
  | nil => exact ⟨rfl, (Nat.zero_add _).symm⟩
  | cons c piece ih =>
    rw [List.all_cons, Bool.and_eq_true] at h
    have hdot : c ≠ .scalar '.' := by
      rintro rfl
      cases h.1
    obtain ⟨hends, hlength⟩ := ih h.2
    rw [List.cons_append, endsName, viableLength, hends, hlength, List.length_cons]
    simp only [Bool.false_eq_true, if_false, hdot, h.1, Bool.true_and, if_true, true_and]
    omega

/-- From the start on, a segment can be skipped. -/
lemma skip_segment {s : Text} (h : isSegment s = true) (t : Text) :
    endsName true (s ++ t) = endsName false t ∧
      viableLength true (s ++ t) = s.length + viableLength false t := by
  cases s with
  | nil => cases h
  | cons c s =>
    rw [isSegment, Bool.and_eq_true] at h
    obtain ⟨hends, hlength⟩ := skip_rest h.2 t
    rw [List.cons_append, endsName, viableLength, hends, hlength, List.length_cons]
    simp only [if_true, h.1, Bool.true_and, true_and]
    omega

/-- Where a segment ends, it is the first piece of a name. -/
lemma split_segment {s t : Text} (hs : isSegment s = true)
    (hstop : ∀ c, t.head? = some c → isSegmentRest c = false) (ht : endsName false t = true) :
    (s ++ t).split (.scalar '.') = s :: (t.split (.scalar '.')).tail := by
  have hdotless := isDotless_of_isSegment hs
  cases t with
  | nil => rw [List.append_nil, Text.split_of_notMem hdotless, Text.split, List.tail_cons]
  | cons c t =>
    rw [endsName, if_neg Bool.false_ne_true, hstop c rfl] at ht
    split_ifs at ht with hdot
    · rw [hdot, Text.split_append_cons hdotless, Text.split, if_pos rfl, List.tail_cons]
    · cases ht

/-- The column that is blamed in a text which stands at a column, has that many code points, and is
viable up to a length. -/
def blamedColumn (column length viable : Nat) : Nat :=
  if viable = length then column + length - 1 else column + viable

/-- Skipping a beginning of the text does not change the column. -/
lemma blamedColumn_add (column skipped length viable : Nat) :
    blamedColumn column (skipped + length) (skipped + viable) =
      blamedColumn (column + skipped) length viable := by
  simp only [blamedColumn, Nat.add_left_cancel_iff, Nat.add_assoc]

/-- Reading by tokens finds the pieces of the rest of a name, and otherwise blames the end of the
text or the place behind its viable part. -/
lemma readTokens_eq {start : Bool} {last column : Nat} {t : Text}
    (hstop : start = false → ∀ c, t.head? = some c → isSegmentRest c = false)
    (hlast : start = true → t = [] → column = last + 1) :
    readTokens start last column t =
      if endsName start t then
        .ok (if start then t.split (.scalar '.') else (t.split (.scalar '.')).tail)
      else .error (blamedColumn column t.length (viableLength start t)) := by
  fun_induction readTokens start last column t
  case case1 last column t s rest htoken ih =>
    obtain ⟨rfl, hs, hrest⟩ := nextToken?_eq_segment htoken
    obtain ⟨hends, hlength⟩ := skip_segment hs rest
    rw [ih (fun _ => hrest) (by simp), hends, hlength, List.length_append]
    by_cases hname : endsName false rest = true
    · rw [if_pos hname, if_pos hname, split_segment hs hrest hname]
      rfl
    · rw [if_neg hname, if_neg hname, blamedColumn_add]
      rfl
  case case2 start last column t s rest htoken hstart =>
    rw [Bool.not_eq_true] at hstart
    obtain ⟨rfl, hs, -⟩ := nextToken?_eq_segment htoken
    cases s with
    | nil => cases hs
    | cons c s =>
      -- A segment cannot start where the one before could have gone on.
      rw [isSegment, Bool.and_eq_true] at hs
      have hrest := hstop hstart c rfl
      rw [isSegmentRest_of_start hs.1] at hrest
      cases hrest
  case case3 last column t rest htoken =>
    obtain rfl := nextToken?_eq_dot htoken
    rw [if_neg (by simp [endsName, isSegmentStart])]
    simp [blamedColumn, viableLength, isSegmentStart]
  case case4 start last column u t htoken hstart ih =>
    rw [Bool.not_eq_true] at hstart
    have hdot := nextToken?_eq_dot htoken
    subst hdot hstart
    have hends : endsName false (.scalar '.' :: t) = endsName true t := rfl
    have hviable : viableLength false (.scalar '.' :: t) = 1 + viableLength true t :=
      Nat.add_comm _ 1
    have hlength : List.length (CodePoint.scalar '.' :: t) = 1 + t.length := Nat.add_comm _ 1
    rw [ih (by simp) (fun _ _ => rfl), hends, hviable, hlength, blamedColumn_add]
    rfl
  case case5 last column htoken =>
    rw [hlast rfl rfl]
    rfl
  case case6 start last column hstart htoken =>
    rw [Bool.not_eq_true] at hstart
    subst hstart
    rfl
  case case7 start last column t htoken hne =>
    obtain ⟨c, t, rfl⟩ := List.exists_cons_of_ne_nil hne
    obtain ⟨hdot, hc⟩ := nextToken?_eq_none htoken
    have hrest : start = false → isSegmentRest c = false := fun hstart => hstop hstart c rfl
    cases start <;> simp [endsName, viableLength, blamedColumn, hdot, hc, hrest]

/-- Reading by tokens finds the segments of a name, and blames the same column of any other text. -/
theorem map_segments_parse {t : Text} (ht : t ≠ []) :
    (parse t).map segments = (readTokens true 1 1 t).mapError (.malformed t) := by
  rw [readTokens_eq (by simp) fun _ hnil => absurd hnil ht]
  rcases parse_cases ht with ⟨m, hparse, hsegments, htext⟩ | ⟨hnot, hparse⟩
  · rw [hparse, if_pos (endsName_true_iff.2 (hsegments ▸ m.isSegment_of_mem)), if_pos rfl,
      ← hsegments]
    rfl
  · have hcolumn : faultColumn t = blamedColumn 1 t.length (viableLength true t) := by
      rw [faultColumn, blamedColumn]
      split_ifs <;> omega
    rw [hparse, if_neg (fun h => hnot (endsName_true_iff.1 h)), ← hcolumn]
    rfl

/-! ### Names from segments -/

/-- Only strings are accepted as segments. -/
lemma eq_map_of_segmentTexts {values : List Json.Value} {ts : List Text}
    (h : segmentTexts values = .ok ts) : values = ts.map .string := by
  fun_induction segmentTexts values generalizing ts
  case case1 =>
    cases h
    rfl
  case case2 s values _ ih =>
    cases hrest : segmentTexts values with
    | error e =>
      rw [hrest] at h
      cases h
    | ok us =>
      rw [hrest] at h
      cases h
      rw [ih hrest, List.map_cons]
  all_goals cases h

/-- Segments are accepted as such. -/
lemma segmentTexts_map {ts : List Text} (h : ∀ s ∈ ts, isSegment s = true) :
    segmentTexts (ts.map .string) = .ok ts := by
  induction ts with
  | nil => rfl
  | cons s ts ih =>
    rw [List.forall_mem_cons] at h
    rw [List.map_cons, segmentTexts, if_pos h.1, ih h.2]
    rfl

/-- A name that is made from segments has these segments. -/
lemma segments_of_ofSegments {ts : List Text} {m : ModuleName} (h : ofSegments ts = .ok m) :
    m.segments = ts := by
  unfold ofSegments at h
  split at h
  · cases h
  · split at h <;> cases h
    rfl

/-- The segments of a name make up the name. -/
lemma ofSegments_segments (m : ModuleName) : ofSegments m.segments = .ok m := by
  have hfind : m.segments.find? (fun s => !isSegment s) = none := by
    simpa using m.isSegment_of_mem
  rw [ofSegments, dif_neg m.segments_ne_nil]
  split
  · next h =>
    rw [hfind] at h
    cases h
  · rfl

/-- The values that make up a name are the texts of its segments. -/
lemma ofValues_eq_ok {values : List Json.Value} {m : ModuleName} :
    ofValues values = .ok m ↔ values = m.segments.map .string := by
  constructor
  · intro h
    unfold ofValues at h
    split at h
    · cases h
    · cases htexts : segmentTexts values with
      | error e =>
        rw [htexts] at h
        cases h
      | ok ts =>
        rw [htexts] at h
        rw [segments_of_ofSegments h]
        exact eq_map_of_segmentTexts htexts
  · rintro rfl
    have hne : m.segments.map Json.Value.string ≠ [] := by simpa using m.segments_ne_nil
    rw [ofValues, if_neg hne, segmentTexts_map m.isSegment_of_mem]
    exact ofSegments_segments m

/-! ### Reading and writing names -/

/-- A text that is not empty is read as a name exactly if its pieces between dots have the form of
segments, which then are the segments of the name, as they are when the text is read by tokens.
Another text is refused with the last column if it is the beginning of a name, and otherwise with
the one behind the longest beginning of a name that it has.  Names are written as texts that are
read as the same name, also those that were made from values. -/
theorem parse_inverse_of_text :
    (∀ t : Text, t ≠ [] →
      ((∃ m, parse t = .ok m) ↔ ∀ s ∈ t.split (.scalar '.'), HasSegmentForm s) ∧
      (∀ m, parse t = .ok m → m.segments = t.split (.scalar '.') ∧ m.text = t) ∧
      (parse t).map segments = (readTokens true 1 1 t).mapError (.malformed t) ∧
      ∀ e, parse t = .error e → ∃ column, e = .malformed t column ∧
        ((∃ m : ModuleName, t <+: m.text ∧ t ≠ m.text) → column = t.length) ∧
        ((¬∃ m : ModuleName, t <+: m.text ∧ t ≠ m.text) →
          ∃ p, IsLongestBeginning p t ∧ column = 1 + p.length)) ∧
    (∀ (values : List Json.Value) (m : ModuleName),
      (ofValues values = .ok m ↔ values = m.segments.map .string) ∧
        (ofValues values = .ok m → parse m.text = .ok m)) ∧
    Function.Injective text := by
  refine ⟨fun t ht => ?_, fun values m => ⟨ofValues_eq_ok, fun _ => parse_text m⟩, text_injective⟩
  have hform : (∀ s ∈ t.split (.scalar '.'), HasSegmentForm s) ↔
      ∀ s ∈ t.split (.scalar '.'), isSegment s = true := by
    simp only [isSegment_iff]
  rw [hform, and_iff_right (map_segments_parse ht)]
  rcases parse_cases ht with ⟨m, hparse, hsegments, htext⟩ | ⟨hnot, hparse⟩
  · refine ⟨⟨fun _ => hsegments ▸ m.isSegment_of_mem, fun _ => ⟨m, hparse⟩⟩, fun m' h => ?_,
      fun e h => ?_⟩
    · cases hparse.symm.trans h
      exact ⟨hsegments, htext⟩
    · cases hparse.symm.trans h
  · refine ⟨⟨fun ⟨m, h⟩ => ?_, fun h => absurd h hnot⟩, fun m h => ?_, fun e h => ?_⟩
    · cases hparse.symm.trans h
    · cases hparse.symm.trans h
    · cases hparse.symm.trans h
      refine ⟨faultColumn t, rfl, fun ⟨m, hm, _⟩ => ?_, fun hbegins => ?_⟩
      · rw [faultColumn, if_pos (viableLength_eq_length_iff.2 ⟨m, hm⟩)]
      · refine ⟨_, isLongestBeginning_take t, ?_⟩
        rw [List.length_take, Nat.min_eq_left (viableLength_le true t), faultColumn, if_neg,
          Nat.add_comm]
        -- A text that is refused is no name, so none begins with it unless it goes on.
        intro hviable
        obtain ⟨m, hm⟩ := viableLength_eq_length_iff.1 hviable
        refine hbegins ⟨m, hm, fun heq => hnot ?_⟩
        rw [heq, split_text]
        exact m.isSegment_of_mem

/-- A text with nothing between two dots is refused with the column of the second one, up to which
it is the beginning of a name. -/
theorem parse_two_dots :
    ("A'..B" : Text) ≠ [] ∧ parse "A'..B" = .error (.malformed "A'..B" 4) ∧
      ∃ p, IsLongestBeginning p "A'..B" ∧ 4 = 1 + p.length := by
  have hne : ("A'..B" : Text) ≠ [] := by decide
  have hparse : parse "A'..B" = .error (.malformed "A'..B" 4) := by rfl
  obtain ⟨column, hcolumn, -, hbegins⟩ :=
    (parse_inverse_of_text.1 "A'..B" hne).2.2.2 _ hparse
  cases hcolumn
  refine ⟨hne, hparse, hbegins ?_⟩
  rintro ⟨m, hm, -⟩
  have hviable := viableLength_eq_length_iff.2 ⟨m, hm⟩
  revert hviable
  decide

end ModuleName

end ModuleBuild
