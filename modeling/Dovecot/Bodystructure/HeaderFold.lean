import Dovecot.Bodystructure.Header
/-!
The metadata of one part after `parse_header` has seen a sequence of its header
lines: a line with no `Content-` name leaves no trace (unless the parent is
message/rfc822), the scalar fields keep their first line's value,
`content_language` takes the last non-empty Content-Language line's.

Each scalar field is set by one branch of the `if` chain, and that branch
tests a guard field (`content_type` for the three Content-Type fields,
`content_disposition_params` for the two Content-Disposition ones, the field
itself for the others). Two step lemmas say all a line can do to such a field:
`parseHeaderField_first` (the branch is taken: the field gets what the line
computes on fresh metadata, and the guard is set), `parseHeaderField_keep`
(it is not: neither changes). `foldl_first_wins` turns them into the law over
every sequence.

That a taken branch sets its guard rests on `message_content_parse_header`
calling the main-value callback once (`HeaderCollab.MainValueOnce`). The
scratch string `data->str` is reset before each parameter list, so the
parameter text of a line is computed from that line alone.
-/

namespace Dovecot

/-! ## First-wins and last-wins folds -/

section Folds

variable {α σ β : Type} (step : σ → α → σ) (F : σ → β)

/-- A value set by the first element satisfying `N` while the guard `G` is
up; every other step keeps the value and the guard. -/
theorem foldl_first_wins (G : σ → Bool) (N : α → Bool) (val : α → β)
    (hset : ∀ s a, N a = true → G s = true → F (step s a) = val a ∧ G (step s a) = false)
    (hkeep : ∀ s a, (N a && G s) = false → F (step s a) = F s ∧ G (step s a) = G s) :
    ∀ (as : List α) (s : σ), G s = true → F (as.foldl step s) = ((as.find? N).map val).getD (F s)
  | [], _, _ => rfl
  | a :: as, s, hg => by
    rw [List.foldl_cons, List.find?_cons]
    cases hn : N a
    · have h := hkeep s a (by rw [hn, Bool.false_and])
      rw [foldl_first_wins G N val hset hkeep as _ (h.2.trans hg), h.1]
    · have hdown : F (as.foldl step (step s a)) = val a := List.foldlRecOn
        (motive := fun x => F x = val a ∧ G x = false) as step (step s a) (hset s a hn hg)
        (fun x hx b _ => by
          have h := hkeep x b (by rw [hx.2, Bool.and_false])
          exact ⟨h.1.trans hx.1, h.2.trans hx.2⟩) |>.1
      rw [hdown]
      rfl

/-- A value set by every element satisfying `P` and kept by the others. -/
theorem foldl_last_wins (P : α → Bool) (val : α → β)
    (hset : ∀ s a, P a = true → F (step s a) = val a)
    (hother : ∀ s a, P a = false → F (step s a) = F s) :
    ∀ (as : List α) (s : σ), F (as.foldl step s) = (((as.filter P).getLast?).map val).getD (F s)
  | [], _ => rfl
  | a :: as, s => by
    rw [List.foldl_cons, foldl_last_wins P val hset hother as, List.filter_cons]
    cases hp : P a
    · rw [hother s a hp]
      rfl
    · rw [hset s a hp, if_pos rfl]
      cases h : (as.filter P).getLast? with
      | none => rw [List.getLast?_eq_none_iff.mp h]; rfl
      | some x => rw [List.getLast?_cons, h]; rfl

end Folds

/-! ## The callbacks of `message_content_parse_header` -/

section Callbacks

variable (c : HeaderCollab)

/-- A main-value callback with at least one token. -/
def ContentEvent.hasTokens : ContentEvent → Bool
  | .value ts => !ts.isEmpty
  | .param _ _ => false

/-- `message_content_parse_header` calls the main-value callback exactly once
per call; every other callback is a parameter. -/
def HeaderCollab.MainValueOnce : Prop :=
  ∀ value, ∃ pre ts post, c.messageContentParseHeader value = pre ++ ContentEvent.value ts :: post ∧
    ∀ e ∈ pre ++ post, ∃ n t, e = ContentEvent.param n t

/-- What no callback changes, the run does not change. -/
theorem runContentCallbacks_frame {β : Type} (proj : MessagePartBodyData → β) {value func paramFunc}
    (h : ∀ e ∈ c.messageContentParseHeader value, ∀ x,
      proj (contentCallback func paramFunc x e) = proj x) (d : MessagePartBodyData) :
    proj (runContentCallbacks c value func paramFunc d) = proj d :=
  List.foldlRecOn (motive := fun x => proj x = proj d) _ _ d rfl fun x hx e he => (h e he x).trans hx

/-- What every callback computes from `proj` alone, the run computes from `proj` alone. -/
theorem runContentCallbacks_congr {β : Type} (proj : MessagePartBodyData → β) {value func paramFunc}
    (h : ∀ e x y, proj x = proj y →
      proj (contentCallback func paramFunc x e) = proj (contentCallback func paramFunc y e))
    {d d' : MessagePartBodyData} (hd : proj d = proj d') :
    proj (runContentCallbacks c value func paramFunc d) =
      proj (runContentCallbacks c value func paramFunc d') :=
  List.foldl_rel (fun x y => proj x = proj y) hd fun e _ x y => h e x y

/-- Under `MainValueOnce`, what the main callback sets and no parameter
callback changes is what the run leaves; the line has a token exactly when
the main value does. -/
theorem runContentCallbacks_main (hc : c.MainValueOnce) (value : String) :
    ∃ ts, (c.messageContentParseHeader value).any ContentEvent.hasTokens = !ts.isEmpty ∧
      ∀ {β : Type} (proj : MessagePartBodyData → β) func paramFunc d,
        (∀ n t x, proj (contentCallback func paramFunc x (.param n t)) = proj x) →
        ∃ x, proj (runContentCallbacks c value func paramFunc d) = proj (func ts x) := by
  obtain ⟨pre, ts, post, he, hp⟩ := hc value
  have hparam : ∀ e ∈ pre ++ post, e.hasTokens = false := fun e he' => by
    obtain ⟨n, t, rfl⟩ := hp e he'
    rfl
  refine ⟨ts, ?_, fun proj func paramFunc d hpar => ⟨pre.foldl (contentCallback func paramFunc) d, ?_⟩⟩
  · have hno : ∀ l : List ContentEvent, (∀ e ∈ l, e.hasTokens = false) →
        l.any ContentEvent.hasTokens = false :=
      fun l h => List.any_eq_false.mpr fun e he' => by simp [h e he']
    rw [he, List.any_append, List.any_cons, hno pre fun e h => hparam e (List.mem_append_left _ h),
      hno post fun e h => hparam e (List.mem_append_right _ h)]
    simp [ContentEvent.hasTokens]
  · rw [runContentCallbacks, he, List.foldl_append, List.foldl_cons]
    exact List.foldlRecOn (motive := fun x => proj x = proj _) _ _ _ rfl fun x hx e he' => by
      obtain ⟨n, t, rfl⟩ := hp e (List.mem_append_right _ he')
      exact (hpar n t x).trans hx

/-- A field the main callback sets, whatever the metadata, and no parameter
callback touches: after the run it is set, to the same value from any start. -/
theorem runContentCallbacks_sets (hc : c.MainValueOnce) (value : String) (func paramFunc)
    (proj : MessagePartBodyData → Option String)
    (hpar : ∀ n t x, proj (contentCallback func paramFunc x (.param n t)) = proj x)
    (hset : ∀ ts x y, proj (func ts x) = proj (func ts y) ∧ (proj (func ts x)).isSome)
    (d d' : MessagePartBodyData) :
    proj (runContentCallbacks c value func paramFunc d) =
        proj (runContentCallbacks c value func paramFunc d') ∧
      (proj (runContentCallbacks c value func paramFunc d)).isSome := by
  obtain ⟨ts, -, hts⟩ := runContentCallbacks_main c hc value
  obtain ⟨x, hx⟩ := hts proj func paramFunc d hpar
  obtain ⟨y, hy⟩ := hts proj func paramFunc d' hpar
  rw [hx, hy]
  exact hset ts x y

/-- The parameter text `parse_save_params_list` collects depends on the
starting text only. -/
theorem runContentCallbacks_params (func) (hf : ∀ ts x, (func ts x).str = x.str) (value : String)
    (d d' : MessagePartBodyData) (h : d.str = d'.str) :
    (runContentCallbacks c value func (some (parseSaveParamsList c)) d).str =
      (runContentCallbacks c value func (some (parseSaveParamsList c)) d').str :=
  runContentCallbacks_congr c _ (fun e x y hxy => by
    cases e
    · rw [contentCallback, contentCallback, hf, hf, hxy]
    · simp only [contentCallback, parseSaveParamsList, hxy]) h

theorem parseContentLanguage_eq (tokens : List Rfc822Token) (d : MessagePartBodyData) :
    parseContentLanguage tokens d = { d with contentLanguage :=
      (if tokens.length = 0 then d.contentLanguage
      else some (parseContentLanguageLoop tokens "" false)) } := by
  unfold parseContentLanguage
  split <;> rfl

end Callbacks

/-! ## One header line -/

/-- A name equal, ignoring case, to a `Content-` name of more than 8 bytes is one itself. -/
theorem isContentName_of_strcasecmpEq {name a : String} (h : strcasecmpEq name a = true)
    (ha : (8 < a.length && isContentPrefix a) = true) :
    (8 < name.length && isContentPrefix name) = true := by
  simp only [strcasecmpEq, decide_eq_true_eq, String.toList] at h
  simp only [Bool.and_eq_true, decide_eq_true_eq] at ha ⊢
  have hl : name.length = a.length := by
    obtain ⟨n⟩ := name
    obtain ⟨a⟩ := a
    simpa using congrArg List.length h
  refine ⟨hl ▸ ha.1, ?_⟩
  simpa only [isContentPrefix, strcasecmpEq, decide_eq_true_eq, String.toList, List.map_take, h]
    using ha.2

/-- The fields `parse_header` sets at most once. -/
inductive OnceField
  | contentType | contentSubtype | contentTypeParams | contentTransferEncoding | contentId
  | contentDescription | contentDisposition | contentDispositionParams | contentMd5
  deriving DecidableEq, Repr

namespace OnceField

/-- The field itself. -/
def get : OnceField → MessagePartBodyData → Option String
  | .contentType => MessagePartBodyData.contentType
  | .contentSubtype => MessagePartBodyData.contentSubtype
  | .contentTypeParams => MessagePartBodyData.contentTypeParams
  | .contentTransferEncoding => MessagePartBodyData.contentTransferEncoding
  | .contentId => MessagePartBodyData.contentId
  | .contentDescription => MessagePartBodyData.contentDescription
  | .contentDisposition => MessagePartBodyData.contentDisposition
  | .contentDispositionParams => MessagePartBodyData.contentDispositionParams
  | .contentMd5 => MessagePartBodyData.contentMd5

/-- The header whose branch of `parse_header` sets it. -/
def header : OnceField → String
  | .contentType | .contentSubtype | .contentTypeParams => "Content-Type"
  | .contentTransferEncoding => "Content-Transfer-Encoding"
  | .contentId => "Content-ID"
  | .contentDescription => "Content-Description"
  | .contentDisposition | .contentDispositionParams => "Content-Disposition"
  | .contentMd5 => "Content-MD5"

/-- The field that branch tests for NULL before it runs. -/
def guard : OnceField → OnceField
  | .contentType | .contentSubtype | .contentTypeParams => .contentType
  | .contentDisposition | .contentDispositionParams => .contentDispositionParams
  | f => f

@[simp] theorem guard_guard (f : OnceField) : f.guard.guard = f.guard := by cases f <;> rfl

@[simp] theorem header_guard (f : OnceField) : f.guard.header = f.header := by cases f <;> rfl

theorem get_empty (f : OnceField) : f.get {} = none := by cases f <;> rfl

theorem header_content (f : OnceField) : (8 < f.header.length && isContentPrefix f.header) = true := by
  cases f <;> decide

end OnceField

theorem ite_proj_eq {α β : Type} {P : Prop} [Decidable P] {a b : α} (proj : α → β) {x : β}
    (ha : P → proj a = x) (hb : ¬P → proj b = x) : proj (if P then a else b) = x :=
  (apply_ite proj P a b).trans (ite_eq_iff'.mpr ⟨ha, hb⟩)

/-- The metadata has a parameter text wherever it has a disposition. -/
def MessagePartBodyData.dispositionParamsSet (d : MessagePartBodyData) : Bool :=
  d.contentDisposition.isNone || d.contentDispositionParams.isSome

section Line

variable (c : HeaderCollab) (p : Bool) (name value : String)

/-- A line whose branch for `f` is not taken changes neither `f` nor its guard. -/
theorem parseHeaderField_keep (f : OnceField) (d : MessagePartBodyData)
    (h : (strcasecmpEq name f.header && (f.guard.get d).isNone) = false) :
    f.get (parseHeaderField c p name value d) = f.get d := by
  unfold parseHeaderField
  cases f <;> simp only [OnceField.header, OnceField.guard, OnceField.get] at h ⊢ <;>
    simp only [h, Bool.false_eq_true, if_false] <;>
    repeat' (apply ite_proj_eq <;> intro)
  all_goals first
    | rfl
    | dsimp only; apply runContentCallbacks_frame; intro e _ x
      cases e <;> first | rfl | simp only [contentCallback, parseContentLanguage_eq]

/-- A line whose branch for `f` is taken gives `f` the value the line computes
on fresh metadata, and sets the guard. -/
theorem parseHeaderField_first (hc : c.MainValueOnce) (f : OnceField) (d : MessagePartBodyData)
    (h : strcasecmpEq name f.header = true) (hg : f.guard.get d = none) :
    f.get (parseHeaderField c p name value d) = f.get (parseHeaderField c p name value {}) ∧
      (f.guard.get (parseHeaderField c p name value d)).isSome := by
  have hType := runContentCallbacks_sets c hc value (parseContentType c) (some (parseSaveParamsList c))
  have hDisp := runContentCallbacks_sets c hc value (parseContentDisposition c)
    (some (parseSaveParamsList c))
  have hTypeStr := runContentCallbacks_params c (parseContentType c) (fun _ _ => rfl) value
  have hDispStr := runContentCallbacks_params c (parseContentDisposition c) (fun _ _ => rfl) value
  cases f <;> simp only [OnceField.header, OnceField.guard, OnceField.get] at h hg ⊢ <;>
    simp only [parseHeaderField, strcasecmpEq_congr h, hg]
  case contentType => exact hType MessagePartBodyData.contentType (fun _ _ _ => rfl) (fun _ _ _ => ⟨rfl, rfl⟩) _ _
  case contentSubtype =>
    exact ⟨(hType MessagePartBodyData.contentSubtype (fun _ _ _ => rfl) (fun _ _ _ => ⟨rfl, rfl⟩) _ _).1,
      (hType MessagePartBodyData.contentType (fun _ _ _ => rfl) (fun _ _ _ => ⟨rfl, rfl⟩) _ {}).2⟩
  case contentTypeParams =>
    exact ⟨congrArg some (hTypeStr _ _ rfl),
      (hType MessagePartBodyData.contentType (fun _ _ _ => rfl) (fun _ _ _ => ⟨rfl, rfl⟩) _ {}).2⟩
  case contentTransferEncoding =>
    exact runContentCallbacks_sets c hc value (parseContentTransferEncoding c) none
      MessagePartBodyData.contentTransferEncoding (fun _ _ _ => rfl) (fun _ _ _ => ⟨rfl, rfl⟩) _ _
  case contentDisposition =>
    exact ⟨(hDisp MessagePartBodyData.contentDisposition (fun _ _ _ => rfl) (fun _ _ _ => ⟨rfl, rfl⟩) _ _).1, rfl⟩
  case contentDispositionParams => exact ⟨congrArg some (hDispStr _ _ rfl), rfl⟩
  all_goals exact ⟨rfl, rfl⟩

/-- What one line does to `content_language`: a Content-Language line with a
token sets it to what the line computes on fresh metadata, any other line
keeps it. -/
theorem parseHeaderField_language (hc : c.MainValueOnce) (d : MessagePartBodyData) :
    (parseHeaderField c p name value d).contentLanguage =
      if (strcasecmpEq name "Content-Language" &&
          (c.messageContentParseHeader value).any ContentEvent.hasTokens) = true
      then (parseHeaderField c p name value {}).contentLanguage
      else d.contentLanguage := by
  cases hn : strcasecmpEq name "Content-Language"
  · unfold parseHeaderField
    simp only [hn, Bool.false_eq_true, if_false, Bool.false_and]
    repeat' (apply ite_proj_eq <;> intro)
    all_goals first
      | rfl
      | dsimp only; apply runContentCallbacks_frame; intro e _ x
        cases e <;> rfl
  · obtain ⟨ts, hany, hts⟩ := runContentCallbacks_main c hc value
    have e : ∀ x, parseHeaderField c p name value x =
        runContentCallbacks c value parseContentLanguage none x := fun x => by
      simp only [parseHeaderField, strcasecmpEq_congr hn]
      rfl
    rw [e, e, Bool.true_and, hany]
    cases ts with
    | nil =>
      simp only [List.isEmpty_nil, Bool.not_true, Bool.false_eq_true, ↓reduceIte]
      refine runContentCallbacks_frame c _ (fun ev hev x => ?_) d
      cases ev with
      | value us =>
        obtain rfl : us = [] := by
          simpa [ContentEvent.hasTokens] using List.any_eq_false.mp hany _ hev
        rfl
      | param => rfl
    | cons t ts =>
      obtain ⟨x, hx⟩ := hts MessagePartBodyData.contentLanguage parseContentLanguage none d
        (fun _ _ _ => rfl)
      obtain ⟨y, hy⟩ := hts MessagePartBodyData.contentLanguage parseContentLanguage none {}
        (fun _ _ _ => rfl)
      simp only [List.isEmpty_cons, Bool.not_false, ↓reduceIte]
      rw [hx, hy]
      rfl

/-- A Content-Type line whose value has no parameter stores an empty parameter
text, not NULL: `p_strdup` of the empty scratch string. -/
theorem parseHeaderField_type_no_params (d : MessagePartBodyData)
    (h : strcasecmpEq name "Content-Type" = true) (hd : d.contentType = none)
    (hno : ∀ e ∈ c.messageContentParseHeader value, ∀ n t, e ≠ .param n t) :
    (parseHeaderField c p name value d).contentTypeParams = some "" := by
  simp only [parseHeaderField, h, hd, Option.isNone_none, Bool.and_self, ↓reduceIte]
  exact congrArg some (runContentCallbacks_frame c MessagePartBodyData.str (fun e he x => by
    cases e with
    | value ts => rfl
    | param n t => exact absurd rfl (hno _ he n t)) _)

/-- A Content-Disposition line whose value has no parameter stores an empty
parameter text, not NULL. -/
theorem parseHeaderField_disposition_no_params (d : MessagePartBodyData)
    (h : strcasecmpEq name "Content-Disposition" = true) (hd : d.contentDispositionParams = none)
    (hno : ∀ e ∈ c.messageContentParseHeader value, ∀ n t, e ≠ .param n t) :
    (parseHeaderField c p name value d).contentDispositionParams = some "" := by
  simp only [parseHeaderField, strcasecmpEq_congr h, hd]
  exact congrArg some (runContentCallbacks_frame c MessagePartBodyData.str (fun e he x => by
    cases e with
    | value ts => rfl
    | param n t => exact absurd rfl (hno _ he n t)) _)

/-- No line leaves a disposition without its parameter text: the branch that
sets the one sets the other, and every other branch keeps both. -/
theorem parseHeaderField_dispositionParamsSet {d : MessagePartBodyData}
    (h : d.dispositionParamsSet = true) : (parseHeaderField c p name value d).dispositionParamsSet = true := by
  cases hb : (strcasecmpEq name "Content-Disposition" && d.contentDispositionParams.isNone)
  · have k₁ : (parseHeaderField c p name value d).contentDisposition = d.contentDisposition :=
      parseHeaderField_keep c p name value .contentDisposition d hb
    have k₂ : (parseHeaderField c p name value d).contentDispositionParams = d.contentDispositionParams :=
      parseHeaderField_keep c p name value .contentDispositionParams d hb
    rwa [MessagePartBodyData.dispositionParamsSet, k₁, k₂]
  · rw [Bool.and_eq_true] at hb
    have hp : (parseHeaderField c p name value d).contentDispositionParams.isSome = true := by
      simp only [parseHeaderField, strcasecmpEq_congr hb.1, hb.2]
      rfl
    rw [MessagePartBodyData.dispositionParamsSet, hp, Bool.or_true]

end Line

/-! ## A sequence of header lines -/

section Lines

variable (c : HeaderCollab) (p : Bool)

/-- `parse_header` called on each line of one part's header, in order,
starting from the part's metadata `context`. -/
def parseHeaders (context : Option MessagePartBodyData) (lines : List (String × String)) :
    Option MessagePartBodyData :=
  lines.foldl (fun ctx l => parseHeader c p l.1 l.2 ctx) context

/-- A name longer than 8 bytes that starts with `Content-`, ignoring case. -/
def isContentName (name : String) : Bool := 8 < name.length && isContentPrefix name

/-- The first-wins value of a field: what the first line named `header`
computes on fresh metadata, or NULL if there is none. -/
def firstLineValue (lines : List (String × String)) (header : String)
    (f : MessagePartBodyData → Option String) : Option String :=
  (lines.find? fun l => strcasecmpEq l.1 header).bind fun l => f (parseHeaderField c p l.1 l.2 {})

/-- A Content-Language line whose main value has a token. -/
def setsLanguage (l : String × String) : Bool :=
  strcasecmpEq l.1 "Content-Language" && (c.messageContentParseHeader l.2).any ContentEvent.hasTokens

/-- The last-wins value of `content_language`: what the last Content-Language
line with a token computes on fresh metadata, or NULL. -/
def lastLanguageValue (lines : List (String × String)) : Option String :=
  ((lines.filter (setsLanguage c)).getLast?).bind fun l => (parseHeaderField c p l.1 l.2 {}).contentLanguage

theorem parseHeader_getD (name value : String) (ctx : Option MessagePartBodyData) :
    (parseHeader c p name value ctx).getD {} =
      if (p || isContentName name) = true then parseHeaderField c p name value (ctx.getD {})
      else ctx.getD {} := by
  unfold parseHeader isContentName
  by_cases hl : 8 < name.length
  · cases p <;> cases isContentPrefix name <;> simp [hl, Nat.not_le.mpr hl]
  · cases p <;> simp [hl, Nat.le_of_not_lt hl]

theorem parseHeader_skip (hp : p = false) {name : String} (h : isContentName name = false)
    (value : String) (ctx : Option MessagePartBodyData) : parseHeader c p name value ctx = ctx := by
  unfold parseHeader
  unfold isContentName at h
  subst hp
  by_cases hl : name.length ≤ 8 <;> simp_all

/-- Dropping every line `parse_header` skips changes nothing, from any metadata. -/
theorem parseHeaders_filter (hp : p = false) :
    ∀ (ctx : Option MessagePartBodyData) (lines : List (String × String)),
      parseHeaders c p ctx lines = parseHeaders c p ctx (lines.filter (isContentName ·.1))
  | _, [] => rfl
  | ctx, l :: ls => by
    rw [List.filter_cons]
    cases h : isContentName l.1
    · rw [parseHeaders, List.foldl_cons, parseHeader_skip c p hp h]
      simpa using parseHeaders_filter hp ctx ls
    · simpa using parseHeaders_filter hp _ ls

/-- **First wins.** Each once-set field holds what the first line with its
header computes on fresh metadata. -/
theorem parseHeaders_first (hc : c.MainValueOnce) (f : OnceField) (lines : List (String × String)) :
    (parseHeaders c p none lines).bind f.get = firstLineValue c p lines f.header f.get := by
  have hrel : ∀ name, strcasecmpEq name f.header = true → (p || isContentName name) = true :=
    fun name h => by rw [isContentName, isContentName_of_strcasecmpEq h f.header_content, Bool.or_true]
  have key := foldl_first_wins (fun ctx l => parseHeader c p l.1 l.2 ctx)
    (fun s => f.get (s.getD {})) (fun s => (f.guard.get (s.getD {})).isNone)
    (fun l => strcasecmpEq l.1 f.header) (fun l => f.get (parseHeaderField c p l.1 l.2 {}))
    (fun s l hn hg => by
      dsimp only at hn hg ⊢
      rw [parseHeader_getD, if_pos (hrel _ hn)]
      have h := parseHeaderField_first c p l.1 l.2 hc f _ hn (Option.isNone_iff_eq_none.mp hg)
      exact ⟨h.1, by simpa [Option.isNone_iff_eq_none, Option.isSome_iff_ne_none] using h.2⟩)
    (fun s l h => by
      dsimp only at h ⊢
      rw [parseHeader_getD]
      split
      · have hg := parseHeaderField_keep c p l.1 l.2 f.guard (s.getD {})
          (by rwa [OnceField.header_guard, OnceField.guard_guard])
        exact ⟨parseHeaderField_keep c p l.1 l.2 f _ h, by rw [hg]⟩
      · exact ⟨rfl, rfl⟩)
    lines none (by simp only [Option.getD_none, OnceField.get_empty, Option.isNone_none])
  simp only [Option.getD_none, OnceField.get_empty] at key
  have hbind : ∀ s : Option MessagePartBodyData, s.bind f.get = f.get (s.getD {}) := fun s => by
    cases s
    exacts [f.get_empty.symm, rfl]
  rw [hbind, parseHeaders, key, firstLineValue]
  cases List.find? _ lines <;> rfl

/-- **Last wins.** `content_language` holds what the last Content-Language
line with a token computes on fresh metadata. -/
theorem parseHeaders_language (hc : c.MainValueOnce) (lines : List (String × String)) :
    (parseHeaders c p none lines).bind MessagePartBodyData.contentLanguage =
      lastLanguageValue c p lines := by
  have hrel : ∀ l, setsLanguage c l = true → (p || isContentName l.1) = true := fun l h => by
    simp only [setsLanguage, Bool.and_eq_true] at h
    rw [isContentName, isContentName_of_strcasecmpEq h.1 (by decide), Bool.or_true]
  have key := foldl_last_wins (fun ctx l => parseHeader c p l.1 l.2 ctx)
    (fun s => (s.getD {}).contentLanguage) (setsLanguage c)
    (fun l => (parseHeaderField c p l.1 l.2 {}).contentLanguage)
    (fun s l h => by
      dsimp only
      rw [parseHeader_getD, if_pos (hrel l h), parseHeaderField_language c p l.1 l.2 hc, ← setsLanguage,
        if_pos h])
    (fun s l h => by
      dsimp only
      rw [parseHeader_getD]
      split
      · rw [parseHeaderField_language c p l.1 l.2 hc, if_neg (by rw [← setsLanguage, h]; decide)]
      · rfl)
    lines none
  have hbind : ∀ s : Option MessagePartBodyData,
      s.bind MessagePartBodyData.contentLanguage = (s.getD {}).contentLanguage := fun s => by
    cases s <;> rfl
  rw [hbind, parseHeaders, key, lastLanguageValue]
  cases (lines.filter (setsLanguage c)).getLast? <;> rfl

theorem parseHeaders_dispositionParamsSet_of :
    ∀ (lines : List (String × String)) (ctx : Option MessagePartBodyData),
      (∀ d ∈ ctx, d.dispositionParamsSet = true) →
        ∀ d ∈ parseHeaders c p ctx lines, d.dispositionParamsSet = true
  | [], _, h => h
  | l :: ls, ctx, h => parseHeaders_dispositionParamsSet_of ls (parseHeader c p l.1 l.2 ctx) fun d hd => by
    unfold parseHeader at hd
    split at hd
    · exact h d hd
    · obtain rfl := Option.some.inj hd
      refine parseHeaderField_dispositionParamsSet c p l.1 l.2 ?_
      cases ctx with
      | none => rfl
      | some d' => exact h d' rfl

end Lines

/-- A stand-in for the RFC822 tokenizer: the whole value is the main value,
one atom, with no parameters. -/
def atomCollab : HeaderCollab where
  messageContentParseHeader value := [.value [⟨'A', value⟩]]
  getValueQuoted tokens _ _ := "\"" ++ String.join (tokens.map (·.text)) ++ "\""
  quoteValue value := "\"" ++ value ++ "\""
  envelopeParseHeader envelope _ _ := envelope

/-- The list without the spaces at its ends. -/
def trimSpaces (l : List Char) : List Char :=
  ((l.dropWhile (· = ' ')).reverse.dropWhile (· = ' ')).reverse

/-- A stand-in for the RFC822 tokenizer on unfolded values with no quoting and
no comments, `main; name=value; ...`: the words of the main value around each
`/` as atoms, the `/` between them, then each parameter with its value as one
atom; a token list is quoted as its text. -/
def mimeCollab : HeaderCollab where
  messageContentParseHeader value :=
    match (value.toList.splitOn ';').map trimSpaces with
    | [] => []
    | main :: params =>
      .value (((main.splitOn '/').map fun w => (⟨'A', ⟨w⟩⟩ : Rfc822Token)).intersperse ⟨'/', "/"⟩) ::
        params.map fun prm => match prm.splitOn '=' with
          | n :: v => .param ⟨'A', ⟨n⟩⟩ [⟨'A', ⟨['='].intercalate v⟩⟩]
          | [] => .param ⟨'A', ""⟩ []
  getValueQuoted tokens start count :=
    "\"" ++ String.join (((tokens.drop start).take count.toNat).map (·.text)) ++ "\""
  quoteValue value := "\"" ++ value ++ "\""
  envelopeParseHeader envelope _ _ := envelope

/-- **A disposition always comes with its parameter text.** Whatever the
tokenizer, every metadata `parse_header` builds from nothing, over any header
lines, has a parameter text wherever it has a disposition; one with no
parameter gets the empty text (`parseHeaderField_disposition_no_params`). So
the writers' branch for a disposition with NULL parameters is never taken on
the metadata this file builds. -/
theorem parseHeaders_dispositionParamsSet (c : HeaderCollab) (p : Bool) (lines : List (String × String))
    (d : MessagePartBodyData) (h : parseHeaders c p none lines = some d) : d.dispositionParamsSet = true :=
  parseHeaders_dispositionParamsSet_of c p lines none (fun _ h => nomatch h) d (Option.mem_def.mpr h)

/-- The header of a multipart/mixed with an inline disposition. -/
def inlineMultipartHeader : List (String × String) :=
  [("Content-Type", "multipart/mixed; boundary=x"), ("Content-Disposition", "inline")]

/-- The metadata `parse_header` leaves on `inlineMultipartHeader`: the
parameter text of the Content-Type, and the disposition with an empty
parameter text. -/
def inlineMultipartData : MessagePartBodyData where
  contentType := some "\"multipart\""
  contentSubtype := some "\"mixed\""
  contentTypeParams := some "\"boundary\" \"x\""
  contentDisposition := some "\"inline\""
  contentDispositionParams := some ""

theorem parseHeaders_dispositionParamsSet_inline :
    parseHeaders mimeCollab false none inlineMultipartHeader = some inlineMultipartData ∧
      inlineMultipartData.dispositionParamsSet = true :=
  have h : parseHeaders mimeCollab false none inlineMultipartHeader = some inlineMultipartData := by decide
  ⟨h, parseHeaders_dispositionParamsSet mimeCollab false _ _ h⟩

/-- A part header with an irrelevant line and a repeated Content-Type. -/
def twoTypesHeader : List (String × String) :=
  [("Subject", "hi"), ("content-type", "text/plain"), ("Content-Language", "en"),
    ("Content-Type", "text/html")]

example : (parseHeaders atomCollab false none twoTypesHeader).bind MessagePartBodyData.contentType =
    some "\"text/plain\"" := by decide

end Dovecot
