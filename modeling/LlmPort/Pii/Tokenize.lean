import LlmPort.Pii.Service
import LlmPort.Text.Replace

/-!
# Tokenization and its inverse

`sanitize_payload` of `services/pii/service.py` in mode `tokenize`, over payloads whose text
segments come with what the analyzer finds in them, and `detokenize_payload`.
-/

namespace LlmPort.Pii

open Ranking Text

/-- A text of a payload, with what the analyzer finds in it. -/
structure Segment where
  text : List Char
  results : List RecognizerResult
  valid : ∀ r ∈ results, r.start < r.stop ∧ r.stop ≤ text.length

/-- `text[r.start : r.end]` -/
def Span.slice (x : Span) (text : List Char) : List Char := (text.take x.stop).drop x.start

/-- `chars[r.start : r.end] = list(token)` -/
def Span.put (x : Span) (chars token : List Char) : List Char :=
  chars.take x.start ++ (token ++ chars.drop x.stop)

/-- `f"[{entity_type}_{count}]"` -/
def surrogateToken (entityType : String) (count : Nat) : List Char :=
  '[' :: (entityType.toList ++ '_' :: (Nat.toDigits 10 count ++ [']']))

/-- `d[key] = value` -/
def dictSet {κ ν : Type} [DecidableEq κ] (key : κ) (value : ν) : List (κ × ν) → List (κ × ν)
  | [] => [(key, value)]
  | entry :: d =>
    if entry.1 = key then (key, value) :: d else entry :: dictSet key value d

/-- What the texts of a payload share; the entries of a dict are in the order of insertion. -/
structure TokenState where
  tokenCounters : List (String × Nat)
  tokenMapping : List (List Char × List Char)
  valueToToken : List (List Char × List Char)

namespace TokenState

def empty : TokenState := ⟨[], [], []⟩

/-- The token of a value, and what is noted of it. -/
def tokenFor (st : TokenState) (entityType : String) (original : List Char) :
    List Char × TokenState :=
  match st.valueToToken.lookup original with
  | some token => (token, st)
  | none =>
    let count := (st.tokenCounters.lookup entityType).getD 0 + 1
    let token := surrogateToken entityType count
    (token, {
      tokenCounters := dictSet entityType count st.tokenCounters
      tokenMapping := dictSet token original st.tokenMapping
      valueToToken := dictSet original token st.valueToToken })

end TokenState

/-- Descending in `r.start`. -/
def startsAfter (r r' : RecognizerResult) : Prop := r'.start ≤ r.start

instance : DecidableRel startsAfter := fun _ _ => inferInstanceAs (Decidable (_ ≤ _))

/-- The results whose stretches are replaced, from the end of the text on. -/
def Segment.kept (seg : Segment) : List RecognizerResult :=
  (nonOverlapping seg.results).insertionSort startsAfter

/-- `_tokenize_text` -/
def tokenizeText (seg : Segment) : StateM TokenState (List Char) := fun st =>
  if seg.results = [] then (seg.text, st)
  else seg.kept.foldl (fun (chars, st) r =>
    let (token, st) := st.tokenFor r.entityType (r.slice seg.text)
    (r.put chars token, st)) (seg.text, st)

/-! ## Payloads -/

inductive ContentItem (τ : Type) where
  | text (t : τ)
  /-- A part that is no text, by its JSON. -/
  | other (json : String)

/-- The `content` of a message or an `input`. -/
inductive Content (τ : Type) where
  | text (t : τ)
  | list (items : List (ContentItem τ))
  | other (json : String)

structure RequestPayload (τ : Type) where
  messages : Option (List (Content τ))
  input : Option (Content τ)

/-- The contents of the choices, `none` where it is no string. -/
structure ResponsePayload where
  choices : Option (List (Option (List Char)))

section
variable {τ τ' : Type} {m : Type → Type} [Monad m]

def ContentItem.walk (sanitizeFn : τ → m τ') : ContentItem τ → m (ContentItem τ')
  | text t => .text <$> sanitizeFn t
  | other json => pure (.other json)

def Content.walk (sanitizeFn : τ → m τ') : Content τ → m (Content τ')
  | text t => .text <$> sanitizeFn t
  | list items => .list <$> items.mapM (·.walk sanitizeFn)
  | other json => pure (.other json)

/-- `_walk_messages` -/
def walkMessages (sanitizeFn : τ → m τ') : Option (List (Content τ)) →
    m (Option (List (Content τ')))
  | none => pure none
  | some messages => some <$> messages.mapM (·.walk sanitizeFn)

/-- `_walk_input` -/
def walkInput (sanitizeFn : τ → m τ') : Option (Content τ) → m (Option (Content τ'))
  | none => pure none
  | some input => some <$> input.walk sanitizeFn

def RequestPayload.walk (sanitizeFn : τ → m τ') (payload : RequestPayload τ) :
    m (RequestPayload τ') := do
  let messages ← walkMessages sanitizeFn payload.messages
  let input ← walkInput sanitizeFn payload.input
  pure ⟨messages, input⟩

end

structure SanitizeResult where
  payload : RequestPayload (List Char)
  tokenMapping : Option (List (List Char × List Char))

/-- In mode `tokenize`. -/
def sanitizePayload (payload : RequestPayload Segment) : SanitizeResult :=
  let (payload, st) := payload.walk tokenizeText .empty
  -- `token_mapping or None`
  ⟨payload, if st.tokenMapping = [] then none else some st.tokenMapping⟩

/-- `_replace_tokens` -/
def replaceTokens (tokenMapping : List (List Char × List Char)) (text : List Char) : List Char :=
  tokenMapping.foldl (fun result (token, original) => replace token original result) text

def detokenizePayload (payload : ResponsePayload) (tokenMapping : List (List Char × List Char)) :
    ResponsePayload :=
  if tokenMapping = [] then payload
  else ⟨payload.choices.map (·.map (·.map (replaceTokens tokenMapping)))⟩

/-! ## Text segments -/

def ContentItem.texts {τ : Type} : ContentItem τ → List τ
  | text t => [t]
  | other _ => []

def Content.texts {τ : Type} : Content τ → List τ
  | text t => [t]
  | list items => items.flatMap (·.texts)
  | other _ => []

/-- The text segments of a payload, in the order in which they are walked. -/
def RequestPayload.texts {τ : Type} (payload : RequestPayload τ) : List τ :=
  (payload.messages.getD []).flatMap (·.texts) ++ (payload.input.map (·.texts)).getD []

/-- A response whose choices say these texts. -/
def ResponsePayload.saying (texts : List (List Char)) : ResponsePayload := ⟨some (texts.map some)⟩

/-- A response that says what the model was sent comes out as what the client sent. -/
def RoundTrips (payload : RequestPayload Segment) : Prop :=
  detokenizePayload (.saying (sanitizePayload payload).payload.texts)
      ((sanitizePayload payload).tokenMapping.getD []) =
    .saying (payload.texts.map (·.text))

/-! ## Surrogates -/

/-- A value that is replaced, and what its token is made of. -/
structure Surrogate where
  entityType : String
  number : Nat
  value : List Char

def Surrogate.token (s : Surrogate) : List Char := surrogateToken s.entityType s.number

/-- A value that has no token yet gets the next number of the type it is found as. -/
def issue (issued : List Surrogate) (found : String × List Char) : List Surrogate :=
  if issued.any (·.value = found.2) then issued
  else issued ++ [⟨found.1, issued.countP (·.entityType = found.1) + 1, found.2⟩]

/-- The values that are replaced, from the end of the text on. -/
def Segment.found (seg : Segment) : List (String × List Char) :=
  seg.kept.map fun r => (r.entityType, r.slice seg.text)

/-- The surrogates for a list of texts, in the order in which they are issued. -/
def surrogates (segs : List Segment) : List Surrogate := (segs.flatMap (·.found)).foldl issue []

/-- The token of a value, or the value itself where it has none. -/
def tokenOf (issued : List Surrogate) (value : List Char) : List Char :=
  ((issued.find? (·.value = value)).map (·.token)).getD value

/-- The pieces of a text up to `stop`, before others. -/
def piecesBefore (text : List Char) : List RecognizerResult → Nat → List (Piece Char (List Char)) →
    List (Piece Char (List Char))
  | [], stop, ps => .text (text.take stop) :: ps
  | r :: rs, stop, ps =>
    piecesBefore text rs r.start
      (.value (r.slice text) :: .text ((text.take stop).drop r.stop) :: ps)

/-- The text as the stretches that stay and the values that are replaced. -/
def Segment.pieces (seg : Segment) : List (Piece Char (List Char)) :=
  piecesBefore seg.text seg.kept seg.text.length []

/-- In the order in which the tokens were issued, each is the value it stands for, or is found in a
text only where it stands for that value, the ones before it having been replaced. -/
def TokensFound (segs : List Segment) : Prop :=
  ∀ seg ∈ segs,
    FoundInTurn (tokenOf (surrogates segs)) id ((surrogates segs).map (·.value)) seg.pieces

/-! ## The stretches that are replaced -/

section
variable {seg : Segment} {r r' : RecognizerResult} {text : List Char}

instance : Std.Total startsAfter := ⟨fun _ _ => Nat.le_total ..⟩

instance : IsTrans RecognizerResult startsAfter := ⟨fun _ _ _ h h' => Nat.le_trans h' h⟩

theorem overlaps_comm : overlaps r r' = overlaps r' r := by
  unfold overlaps
  rw [decide_eq_decide]
  exact and_comm

theorem Segment.valid_of_mem_kept (h : r ∈ seg.kept) :
    r.start < r.stop ∧ r.stop ≤ seg.text.length :=
  seg.valid r (mem_of_mem_select ((List.mem_insertionSort _).1 h))

/-- From the end of the text on, each stretch ends before the one before it starts. -/
theorem Segment.pairwise_kept : seg.kept.Pairwise fun r r' => r'.stop ≤ r.start := by
  have hclash : seg.kept.Pairwise fun r r' => overlaps r' r = false := by
    refine (List.Perm.pairwise_iff ?_ (List.perm_insertionSort ..)).2 pairwise_select
    intro r r' h
    rwa [overlaps_comm]
  have hsorted : seg.kept.Pairwise startsAfter := List.pairwise_insertionSort ..
  refine (hclash.and hsorted).imp_of_mem fun {r r'} hr _ h => ?_
  have hvalid := Segment.valid_of_mem_kept hr
  have hno := h.1
  have hle : r'.start ≤ r.start := h.2
  unfold overlaps at hno
  rw [decide_eq_false_iff_not] at hno
  omega

theorem take_append_slice (hr : r.start ≤ r.stop) {stop : Nat} (hstop : r.stop ≤ stop) :
    text.take r.start ++ (r.slice text ++ (text.take stop).drop r.stop) = text.take stop := by
  have hslice : text.take r.start ++ r.slice text = text.take r.stop := by
    have htake : text.take r.start = (text.take r.stop).take r.start := by
      rw [List.take_take, Nat.min_eq_left hr]
    rw [htake]
    exact List.take_append_drop ..
  have hrest : text.take r.stop = (text.take stop).take r.stop := by
    rw [List.take_take, Nat.min_eq_left hstop]
  rw [← List.append_assoc, hslice, hrest]
  exact List.take_append_drop ..

/-- The stretches lie before `stop`, from the end on, within the text. -/
def Descends (text : List Char) (stop : Nat) (rs : List RecognizerResult) : Prop :=
  stop ≤ text.length ∧ (∀ r ∈ rs, r.start < r.stop ∧ r.stop ≤ stop) ∧
    rs.Pairwise fun r r' => r'.stop ≤ r.start

theorem Descends.tail {stop : Nat} {rs : List RecognizerResult} (h : Descends text stop (r :: rs)) :
    Descends text r.start rs := by
  obtain ⟨hlength, hvalid, hpair⟩ := h
  obtain ⟨hlt, hle⟩ := hvalid r List.mem_cons_self
  obtain ⟨hbefore, hpair⟩ := List.pairwise_cons.1 hpair
  refine ⟨by omega, fun r' hr' => ⟨?_, hbefore r' hr'⟩, hpair⟩
  exact (hvalid r' (List.mem_cons_of_mem _ hr')).1

theorem Segment.descends : Descends seg.text seg.text.length seg.kept :=
  ⟨Nat.le_refl _, fun _ hr => Segment.valid_of_mem_kept hr, Segment.pairwise_kept⟩

theorem render_piecesBefore {stop : Nat} {rs : List RecognizerResult}
    {ps : List (Piece Char (List Char))} (h : Descends text stop rs) :
    render id (piecesBefore text rs stop ps) = text.take stop ++ render id ps := by
  induction rs generalizing stop ps with
  | nil => rfl
  | cons r rs ih =>
    obtain ⟨hlt, hle⟩ := h.2.1 r List.mem_cons_self
    have hcut : (text.take r.start ++ (r.slice text ++ (text.take stop).drop r.stop)) ++
        render id ps = text.take stop ++ render id ps := by
      rw [take_append_slice hlt.le hle]
    rw [piecesBefore, ih h.tail, render_cons, render_cons, Piece.shown, Piece.shown, id_eq]
    simpa only [List.append_assoc] using hcut

/-- The pieces make up the text. -/
theorem Segment.render_pieces : render id seg.pieces = seg.text := by
  rw [Segment.pieces, render_piecesBefore Segment.descends, List.take_length, render_nil,
    List.append_nil]

theorem mem_piecesBefore {stop : Nat} {rs : List RecognizerResult}
    {ps : List (Piece Char (List Char))} {v : List Char}
    (h : .value v ∈ piecesBefore text rs stop ps) :
    (∃ r ∈ rs, r.slice text = v) ∨ .value v ∈ ps := by
  induction rs generalizing stop ps with
  | nil =>
    rcases List.mem_cons.1 h with h | h
    · cases h
    · exact .inr h
  | cons r rs ih =>
    rcases ih h with ⟨r', hr', hv⟩ | hps
    · exact .inl ⟨r', List.mem_cons_of_mem _ hr', hv⟩
    · rcases List.mem_cons.1 hps with hv | hps
      · exact .inl ⟨r, List.mem_cons_self, (Piece.value.inj hv).symm⟩
      · rcases List.mem_cons.1 hps with hv | hps
        · cases hv
        · exact .inr hps

/-- The values of the pieces are those that are replaced. -/
theorem Segment.found_of_mem_pieces {v : List Char} (h : .value v ∈ seg.pieces) :
    ∃ x ∈ seg.found, x.2 = v := by
  rcases mem_piecesBefore h with ⟨r, hr, hv⟩ | h
  · exact ⟨_, List.mem_map.2 ⟨r, hr, rfl⟩, hv⟩
  · cases h

end

/-! ## The tokens are distinct -/

theorem surrogateToken_ne_nil (entityType : String) (count : Nat) :
    surrogateToken entityType count ≠ [] := by
  simp [surrogateToken]

theorem surrogateToken_inj {t t' : String} {n n' : Nat}
    (h : surrogateToken t n = surrogateToken t' n') : t = t' ∧ n = n' := by
  have htail := (List.cons.inj h).2
  rw [← List.cons_append, ← List.cons_append, ← List.append_assoc, ← List.append_assoc] at htail
  obtain ⟨hname, hdigits⟩ := append_cons_inj Nat.underscore_not_in_toDigits
    Nat.underscore_not_in_toDigits (List.append_cancel_right htail)
  have hn := congrArg (fun digits => Nat.ofDigitChars 10 digits 0) hdigits
  exact ⟨String.toList_injective hname, by simpa using hn⟩

/-! ## What is issued -/

section
variable {I J : List Surrogate} {s : Surrogate} {x : String × List Char}
  {xs : List (String × List Char)} {v : List Char}

theorem prefix_issue : I <+: issue I x := by
  unfold issue
  split
  · exact List.prefix_rfl
  · exact List.prefix_append ..

theorem prefix_foldl_issue : I <+: xs.foldl issue I := by
  induction xs generalizing I with
  | nil => exact List.prefix_rfl
  | cons x xs ih => exact prefix_issue.trans ih

theorem exists_of_issue : ∃ s ∈ issue I x, s.value = x.2 := by
  unfold issue
  split
  next h =>
    obtain ⟨s, hs, hv⟩ := List.any_eq_true.1 h
    exact ⟨s, hs, of_decide_eq_true hv⟩
  next => exact ⟨_, List.mem_append_right _ (List.mem_singleton_self _), rfl⟩

theorem exists_of_foldl_issue (h : x ∈ xs) : ∃ s ∈ xs.foldl issue I, s.value = x.2 := by
  induction xs generalizing I with
  | nil => cases h
  | cons y xs ih =>
    rcases List.mem_cons.1 h with rfl | h
    · obtain ⟨s, hs, hv⟩ := exists_of_issue (I := I) (x := x)
      have hp : issue I x <+: xs.foldl issue (issue I x) := prefix_foldl_issue
      exact ⟨s, hp.subset hs, hv⟩
    · exact ih h

theorem tokenOf_extend (h : I <+: J) (hv : ∃ s ∈ I, s.value = v) :
    tokenOf J v = tokenOf I v := by
  obtain ⟨K, rfl⟩ := h
  obtain ⟨s, hs, hsv⟩ := hv
  have hfind : (I.find? (·.value = v)).isSome :=
    List.find?_isSome.2 ⟨s, hs, decide_eq_true hsv⟩
  rw [tokenOf, tokenOf, List.find?_append, Option.or_of_isSome hfind]

theorem tokenOf_of_mem (hI : (I.map (·.value)).Nodup) (hs : s ∈ I) :
    tokenOf I s.value = s.token := by
  cases hf : I.find? (·.value = s.value) with
  | none => simpa using List.find?_eq_none.1 hf s hs
  | some s' =>
    have hv := List.find?_some hf
    simp only [decide_eq_true_eq] at hv
    have hsame := List.inj_on_of_nodup_map hI (List.mem_of_find?_eq_some hf) hs hv
    rw [tokenOf, hf, hsame]
    rfl

theorem tokenOf_ne_nil (h : ∃ s ∈ I, s.value = v) : tokenOf I v ≠ [] := by
  obtain ⟨s, hs, hv⟩ := h
  cases hf : I.find? (·.value = v) with
  | none => exact (List.find?_eq_none.1 hf s hs (decide_eq_true hv)).elim
  | some s' =>
    rw [tokenOf, hf]
    exact surrogateToken_ne_nil s'.entityType s'.number

/-! ## The state and what it stands for -/

section
variable {κ ν : Type} [DecidableEq κ] {d : List (κ × ν)} {key key' : κ} {value : ν}

theorem lookup_dictSet :
    (dictSet key value d).lookup key' = if key' = key then some value else d.lookup key' := by
  have hcons {entry : κ × ν} {d : List (κ × ν)} :
      (entry :: d).lookup key' = if key' = entry.1 then some entry.2 else d.lookup key' := by
    rw [List.lookup_cons]
    by_cases hk : key' = entry.1
    · rw [if_pos hk, beq_iff_eq.2 hk]
    · rw [if_neg hk, beq_eq_false_iff_ne.2 hk]
  induction d with
  | nil => exact hcons
  | cons entry d ih =>
    rw [dictSet]
    split
    next h =>
      rw [hcons, hcons, h]
      split <;> rfl
    next h =>
      rw [hcons, hcons, ih]
      split
      next hk => rw [if_neg fun h' => h (hk.symm.trans h')]
      next => rfl

theorem dictSet_of_not_mem (h : key ∉ d.map (·.1)) : dictSet key value d = d ++ [(key, value)] := by
  induction d with
  | nil => rfl
  | cons entry d ih =>
    rw [List.map_cons, List.mem_cons, not_or] at h
    rw [dictSet, if_neg (Ne.symm h.1), ih h.2, List.cons_append]

end

/-- The three dicts hold what has been issued. -/
structure Represents (st : TokenState) (I : List Surrogate) : Prop where
  mapping : st.tokenMapping = I.map fun s => (s.token, s.value)
  values : st.valueToToken = I.map fun s => (s.value, s.token)
  counters : ∀ t, (st.tokenCounters.lookup t).getD 0 = I.countP (·.entityType = t)
  numbers : ∀ s ∈ I, s.number ≤ I.countP (·.entityType = s.entityType)
  nodup : (I.map (·.value)).Nodup
  tokens : (I.map (·.token)).Nodup

theorem Represents.empty : Represents .empty [] := by
  constructor <;> simp [TokenState.empty]

theorem lookup_values : (I.map fun s => (s.value, s.token)).lookup v =
    (I.find? (·.value = v)).map (·.token) := by
  induction I with
  | nil => rfl
  | cons s I ih =>
    rw [List.map_cons, List.lookup_cons, List.find?_cons, ih]
    by_cases h : s.value = v
    · rw [beq_iff_eq.2 h.symm, decide_eq_true h]
      rfl
    · rw [beq_eq_false_iff_ne.2 (Ne.symm h), decide_eq_false h]

/-- The token of a value is the one it was issued, or is issued now. -/
theorem Represents.tokenFor {st : TokenState} (h : Represents st I) :
    (st.tokenFor x.1 x.2).1 = tokenOf (issue I x) x.2 ∧
      Represents (st.tokenFor x.1 x.2).2 (issue I x) := by
  have hlookup : st.valueToToken.lookup x.2 = (I.find? (·.value = x.2)).map (·.token) := by
    rw [h.values, lookup_values]
  unfold TokenState.tokenFor
  cases hf : I.find? (·.value = x.2) with
  | some s =>
    have hv := List.find?_some hf
    have hany : I.any (·.value = x.2) :=
      List.any_eq_true.2 ⟨s, List.mem_of_find?_eq_some hf, hv⟩
    rw [hlookup, hf, issue, if_pos hany]
    exact ⟨by rw [tokenOf, hf]; rfl, h⟩
  | none =>
    have hno := List.find?_eq_none.1 hf
    have hany : ¬ I.any (·.value = x.2) := fun hany => by
      obtain ⟨s, hs, hv⟩ := List.any_eq_true.1 hany
      exact hno s hs hv
    have hvalue : x.2 ∉ I.map (·.value) := fun hmem => by
      obtain ⟨s, hs, hv⟩ := List.mem_map.1 hmem
      exact hno s hs (decide_eq_true hv)
    -- the number is greater than all that the type has
    have htoken : surrogateToken x.1 (I.countP (·.entityType = x.1) + 1) ∉ I.map (·.token) :=
      fun hmem => by
        obtain ⟨s, hs, hsame⟩ := List.mem_map.1 hmem
        obtain ⟨htype, hnumber⟩ := surrogateToken_inj hsame
        have hle := h.numbers s hs
        rw [htype] at hle
        omega
    rw [hlookup, hf, issue, if_neg hany]
    dsimp only [Option.map_none]
    rw [h.counters]
    constructor
    · rw [tokenOf, List.find?_append, hf]
      simp [Surrogate.token]
    · constructor
      · dsimp only
        rw [h.mapping, dictSet_of_not_mem (by rwa [List.map_map]), List.map_append]
        rfl
      · dsimp only
        rw [h.values, dictSet_of_not_mem (by rwa [List.map_map]), List.map_append]
        rfl
      · intro t
        rw [lookup_dictSet, List.countP_append]
        by_cases ht : t = x.1
        · simp [ht]
        · simp [ht, Ne.symm ht, h.counters]
      · intro s hs
        rw [List.countP_append]
        rcases List.mem_append.1 hs with hs | hs
        · exact (h.numbers s hs).trans (Nat.le_add_right ..)
        · rw [List.mem_singleton.1 hs]
          simp
      · rw [List.map_append, List.map_singleton]
        exact h.nodup.append (List.nodup_singleton _) (List.disjoint_singleton.2 hvalue)
      · rw [List.map_append, List.map_singleton]
        exact h.tokens.append (List.nodup_singleton _) (List.disjoint_singleton.2 htoken)

/-! ## Tokenized texts -/

/-- The text up to `stop`, with what has been replaced behind it, is tokenized to its pieces. -/
theorem Represents.foldl_tokenize {st : TokenState} {text : List Char} {stop : Nat}
    {rs : List RecognizerResult} (h : Represents st I) (ps : List (Piece Char (List Char)))
    (hrs : Descends text stop rs)
    (hJ : (rs.map fun r => (r.entityType, r.slice text)).foldl issue I <+: J) :
    let out := rs.foldl (fun (chars, st) r =>
      let (token, st) := TokenState.tokenFor st r.entityType (r.slice text)
      (r.put chars token, st)) (text.take stop ++ render (tokenOf J) ps, st)
    out.1 = render (tokenOf J) (piecesBefore text rs stop ps) ∧
      Represents out.2 ((rs.map fun r => (r.entityType, r.slice text)).foldl issue I) := by
  induction rs generalizing st I stop ps with
  | nil => exact ⟨rfl, h⟩
  | cons r rs ih =>
    obtain ⟨hlt, hle⟩ := hrs.2.1 r List.mem_cons_self
    obtain ⟨htoken, hstep⟩ := h.tokenFor (x := (r.entityType, r.slice text))
    rw [List.map_cons, List.foldl_cons] at hJ
    have hissued : tokenOf (issue I (r.entityType, r.slice text)) (r.slice text) =
        tokenOf J (r.slice text) :=
      (tokenOf_extend (prefix_foldl_issue.trans hJ) exists_of_issue).symm
    have hput : r.put (text.take stop ++ render (tokenOf J) ps) (tokenOf J (r.slice text)) =
        text.take r.start ++ render (tokenOf J)
          (.value (r.slice text) :: .text ((text.take stop).drop r.stop) :: ps) := by
      have hlength : r.stop ≤ (text.take stop).length := by
        rw [List.length_take, Nat.min_eq_left hrs.1]
        exact hle
      have hstart : r.start ≤ (text.take stop).length := hlt.le.trans hlength
      rw [Span.put, List.take_append_of_le_length hstart, List.drop_append_of_le_length hlength,
        List.take_take, Nat.min_eq_left (hlt.le.trans hle)]
      rfl
    rw [List.map_cons, List.foldl_cons, List.foldl_cons]
    dsimp only at htoken ⊢
    rw [htoken, hissued, hput]
    exact ih hstep _ hrs.tail hJ

theorem Represents.tokenizeText {st : TokenState} {seg : Segment} (h : Represents st I)
    (hJ : seg.found.foldl issue I <+: J) :
    (tokenizeText seg st).1 = render (tokenOf J) seg.pieces ∧
      Represents (tokenizeText seg st).2 (seg.found.foldl issue I) := by
  unfold Pii.tokenizeText
  split
  next hnone =>
    have hkept : seg.kept = [] := by
      rw [Segment.kept, hnone]
      rfl
    have hfound : seg.found = [] := by
      rw [Segment.found, hkept]
      rfl
    rw [hfound, Segment.pieces, hkept, piecesBefore, List.take_length]
    exact ⟨by simp [Piece.shown], h⟩
  next =>
    have hall := h.foldl_tokenize [] seg.descends hJ
    rw [List.take_length, render_nil, List.append_nil] at hall
    exact hall

/-- The texts share the state, so that a value keeps its token. -/
theorem Represents.mapM_tokenizeText {st : TokenState} {segs : List Segment} (h : Represents st I)
    (hJ : (segs.flatMap (·.found)).foldl issue I <+: J) :
    (segs.mapM Pii.tokenizeText st).1 = segs.map (fun seg => render (tokenOf J) seg.pieces) ∧
      Represents (segs.mapM Pii.tokenizeText st).2 ((segs.flatMap (·.found)).foldl issue I) := by
  induction segs generalizing st I with
  | nil => exact ⟨rfl, h⟩
  | cons seg segs ih =>
    rw [List.flatMap_cons, List.foldl_append] at hJ ⊢
    obtain ⟨htext, hstep⟩ := h.tokenizeText (prefix_foldl_issue.trans hJ)
    obtain ⟨htexts, hrest⟩ := ih hstep hJ
    rw [List.mapM_cons]
    exact ⟨congrArg₂ List.cons htext htexts, hrest⟩

/-! ## Tokens that are found -/

theorem replaceTokens_eq (hI : (I.map (·.value)).Nodup) (text : List Char) :
    replaceTokens (I.map fun s => (s.token, s.value)) text =
      restore (tokenOf I) id (I.map (·.value)) text := by
  rw [replaceTokens, restore, List.foldl_map, List.foldl_map]
  refine List.foldl_ext _ _ _ fun result s hs => ?_
  rw [tokenOf_of_mem hI hs]
  rfl

/-- Replacing the tokens of a text in turn gives the text. -/
theorem replaceTokens_render {segs : List Segment} {seg : Segment} (hseg : seg ∈ segs)
    (hI : ((surrogates segs).map (·.value)).Nodup) (h : TokensFound segs) :
    replaceTokens ((surrogates segs).map fun s => (s.token, s.value))
      (render (tokenOf (surrogates segs)) seg.pieces) = seg.text := by
  have hissued {v : List Char} (hv : .value v ∈ seg.pieces) :
      ∃ s ∈ surrogates segs, s.value = v := by
    obtain ⟨x, hx, rfl⟩ := seg.found_of_mem_pieces hv
    exact exists_of_foldl_issue (List.mem_flatMap.2 ⟨seg, hseg, hx⟩)
  rw [replaceTokens_eq hI, restore_render hI ?_ ?_ (h seg hseg), Segment.render_pieces]
  · intro v hv
    exact tokenOf_ne_nil (List.mem_map.1 hv)
  · intro v hv
    exact List.mem_map.2 (hissued hv)

end

/-! ## Texts without brackets -/

section
variable {I : List Surrogate} {segs : List Segment} {s : Surrogate}

theorem bracketed_surrogateToken {entityType : String} {count : Nat}
    (hopen : '[' ∉ entityType.toList) (hclose : ']' ∉ entityType.toList) :
    Bracketed '[' ']' (surrogateToken entityType count) := by
  have hdigits {c : Char} (hc : c.isDigit = false) : c ∉ Nat.toDigits 10 count := fun h => by
    rw [Nat.isDigit_of_mem_toDigits (by decide) (by decide) h] at hc
    cases hc
  refine ⟨entityType.toList ++ '_' :: Nat.toDigits 10 count, by simp [surrogateToken], ?_, ?_⟩
  · simp [hopen, hdigits (c := '[') rfl]
  · simp [hclose, hdigits (c := ']') rfl]

theorem found_of_mem_foldl_issue {xs : List (String × List Char)} (h : s ∈ xs.foldl issue I) :
    s ∈ I ∨ (s.entityType, s.value) ∈ xs := by
  induction xs generalizing I with
  | nil => exact .inl h
  | cons x xs ih =>
    rcases ih h with h | h
    · unfold issue at h
      split at h
      next => exact .inl h
      next =>
        rcases List.mem_append.1 h with h | h
        · exact .inl h
        · rw [List.mem_singleton.1 h]
          exact .inr List.mem_cons_self
    · exact .inr (List.mem_cons_of_mem _ h)

theorem result_of_mem_surrogates (h : s ∈ surrogates segs) :
    ∃ seg ∈ segs, ∃ r ∈ seg.results, r.entityType = s.entityType ∧ r.slice seg.text = s.value := by
  rcases found_of_mem_foldl_issue h with h | h
  · cases h
  · obtain ⟨seg, hseg, hx⟩ := List.mem_flatMap.1 h
    obtain ⟨r, hr, hx⟩ := List.mem_map.1 hx
    obtain ⟨htype, hvalue⟩ := Prod.mk.inj hx
    exact ⟨seg, hseg, r, mem_of_mem_select ((List.mem_insertionSort _).1 hr), htype, hvalue⟩

theorem mem_of_mem_slice {x : Span} {text : List Char} {c : Char} (h : c ∈ x.slice text) :
    c ∈ text :=
  List.mem_of_mem_take (List.mem_of_mem_drop h)

theorem text_of_mem_piecesBefore {text l : List Char} {rs : List RecognizerResult} {stop : Nat}
    {ps : List (Piece Char (List Char))} (h : .text l ∈ piecesBefore text rs stop ps) :
    (∀ c ∈ l, c ∈ text) ∨ .text l ∈ ps := by
  induction rs generalizing stop ps with
  | nil =>
    rcases List.mem_cons.1 h with h | h
    · rw [Piece.text.inj h]
      exact .inl fun c hc => List.mem_of_mem_take hc
    · exact .inr h
  | cons r rs ih =>
    rcases ih h with h | h
    · exact .inl h
    · rcases List.mem_cons.1 h with h | h
      · cases h
      · rcases List.mem_cons.1 h with h | h
        · rw [Piece.text.inj h]
          exact .inl fun c hc => List.mem_of_mem_take (List.mem_of_mem_drop hc)
        · exact .inr h

/-- Where no text has an opening bracket and no entity type any bracket, tokens are found. -/
theorem tokensFound_of_no_bracket (htexts : ∀ seg ∈ segs, '[' ∉ seg.text)
    (htypes : ∀ seg ∈ segs, ∀ r ∈ seg.results,
      '[' ∉ r.entityType.toList ∧ ']' ∉ r.entityType.toList) : TokensFound segs := by
  obtain ⟨-, hstate⟩ : _ ∧ Represents (segs.mapM tokenizeText .empty).2 (surrogates segs) :=
    Represents.empty.mapM_tokenizeText List.prefix_rfl
  have htoken {s : Surrogate} (hs : s ∈ surrogates segs) : Bracketed '[' ']' s.token := by
    obtain ⟨seg, hseg, r, hr, htype, -⟩ := result_of_mem_surrogates hs
    obtain ⟨hopen, hclose⟩ := htypes seg hseg r hr
    exact bracketed_surrogateToken (htype ▸ hopen) (htype ▸ hclose)
  have hvalue {s : Surrogate} (hs : s ∈ surrogates segs) : '[' ∉ s.value := by
    obtain ⟨seg, hseg, r, -, -, hslice⟩ := result_of_mem_surrogates hs
    rw [← hslice]
    exact fun h => htexts seg hseg (mem_of_mem_slice h)
  intro seg hseg done v rest hsplit
  have hv : v ∈ (surrogates segs).map (·.value) :=
    hsplit ▸ List.mem_append_right _ List.mem_cons_self
  obtain ⟨s, hs, rfl⟩ := List.mem_map.1 hv
  have hdone : s.value ∉ done := fun hmem => by
    have hnodup := hstate.nodup
    rw [hsplit] at hnodup
    exact (List.nodup_append.1 hnodup).2.2 _ hmem _ List.mem_cons_self rfl
  have hshown : shownAfter (tokenOf (surrogates segs)) id done s.value = s.token := by
    rw [shownAfter, if_neg hdone, tokenOf_of_mem hstate.nodup hs]
  refine .inr (onlyWherePut_of_bracketed (by decide) (hshown ▸ htoken hs) ?_ ?_)
  · intro l hl
    rcases text_of_mem_piecesBefore hl with hsub | hl
    · exact fun hmem => htexts seg hseg (hsub _ hmem)
    · cases hl
  · intro w hw
    obtain ⟨x, hx, rfl⟩ := seg.found_of_mem_pieces hw
    obtain ⟨s', hs', hsx⟩ := exists_of_foldl_issue (I := [])
      (List.mem_flatMap.2 ⟨seg, hseg, hx⟩ : x ∈ segs.flatMap (·.found))
    rw [← hsx, hshown]
    unfold shownAfter
    split
    next => exact .inl (hvalue hs')
    next =>
      rw [tokenOf_of_mem hstate.nodup hs']
      refine .inr ⟨htoken hs', fun hsame => ?_⟩
      rw [List.inj_on_of_nodup_map hstate.tokens hs' hs hsame]

end

/-! ## The texts of a payload -/

section
variable {τ τ' : Type} {m : Type → Type} [Monad m] [LawfulMonad m] {sanitizeFn : τ → m τ'}

theorem texts_mapM {γ : Type → Type} {walk : γ τ → m (γ τ')} (texts : (τ : Type) → γ τ → List τ)
    (h : ∀ c, texts τ' <$> walk c = (texts τ c).mapM sanitizeFn) (cs : List (γ τ)) :
    (List.flatMap (texts τ')) <$> cs.mapM walk = (cs.flatMap (texts τ)).mapM sanitizeFn := by
  induction cs with
  | nil => simp
  | cons c cs ih =>
    rw [List.flatMap_cons, List.mapM_append, ← ih, ← h]
    simp [List.mapM_cons]

/-- Walking a content sanitizes its texts in order. -/
theorem ContentItem.texts_walk (item : ContentItem τ) :
    ContentItem.texts <$> item.walk sanitizeFn = item.texts.mapM sanitizeFn := by
  cases item with
  | text t => simp [walk, texts]
  | other json => simp [walk, texts]

theorem Content.texts_walk (content : Content τ) :
    Content.texts <$> content.walk sanitizeFn = content.texts.mapM sanitizeFn := by
  cases content with
  | text t => simp [walk, texts]
  | list items =>
    rw [texts, ← texts_mapM (fun _ => ContentItem.texts) ContentItem.texts_walk]
    simp [walk, texts]
  | other json => simp [walk, texts]

theorem RequestPayload.texts_walk (payload : RequestPayload τ) :
    RequestPayload.texts <$> payload.walk sanitizeFn = payload.texts.mapM sanitizeFn := by
  have hmessages : (fun messages => (messages.getD []).flatMap Content.texts) <$>
      walkMessages sanitizeFn payload.messages =
        ((payload.messages.getD []).flatMap Content.texts).mapM sanitizeFn := by
    cases payload.messages with
    | none => simp [walkMessages]
    | some messages =>
      rw [Option.getD_some, ← texts_mapM (fun _ => Content.texts) Content.texts_walk]
      simp [walkMessages]
  have hinput : (fun input : Option (Content τ') => (input.map Content.texts).getD []) <$>
      walkInput sanitizeFn payload.input =
        ((payload.input.map Content.texts).getD []).mapM sanitizeFn := by
    cases payload.input with
    | none => simp [walkInput]
    | some input =>
      rw [Option.map_some, Option.getD_some, ← Content.texts_walk]
      simp [walkInput]
  rw [texts, List.mapM_append, ← hmessages, ← hinput]
  simp [walk, texts]

end

/-- What the sanitized payload says, and the mapping that comes with it. -/
theorem sanitizePayload_spec (payload : RequestPayload Segment) :
    (sanitizePayload payload).payload.texts =
        payload.texts.map (fun seg => render (tokenOf (surrogates payload.texts)) seg.pieces) ∧
      (sanitizePayload payload).tokenMapping.getD [] =
        (surrogates payload.texts).map (fun s => (s.token, s.value)) ∧
      ((surrogates payload.texts).map (·.value)).Nodup := by
  obtain ⟨htexts, hstate⟩ : (payload.texts.mapM tokenizeText .empty).1 = _ ∧ Represents _ _ :=
    Represents.empty.mapM_tokenizeText List.prefix_rfl
  rw [← payload.texts_walk] at htexts hstate
  have hmapping (l : List (List Char × List Char)) :
      (if l = [] then none else some l).getD [] = l := by
    split
    next h => exact h.symm
    next => rfl
  exact ⟨htexts, (hmapping _).trans hstate.mapping, hstate.nodup⟩

/-- Tokens that are found undo the tokenization. -/
theorem roundTrips_of_tokensFound {payload : RequestPayload Segment}
    (h : TokensFound payload.texts) : RoundTrips payload := by
  obtain ⟨htexts, hmapping, hI⟩ := sanitizePayload_spec payload
  have hrestored : payload.texts.map (fun seg => replaceTokens
      ((surrogates payload.texts).map fun s => (s.token, s.value))
      (render (tokenOf (surrogates payload.texts)) seg.pieces)) = payload.texts.map (·.text) :=
    List.map_congr_left fun seg hseg => replaceTokens_render hseg hI h
  rw [RoundTrips, detokenizePayload, htexts, hmapping]
  split
  next hnil =>
    rw [hnil] at hrestored
    exact congrArg ResponsePayload.saying hrestored
  next =>
    rw [← hrestored]
    simp [ResponsePayload.saying]

/-- A name that occurs in two texts. -/
theorem roundTrips_of_tokensFound_shared_name : RoundTrips
    { messages := some [
        .text ⟨"Ann met Bob".toList, [⟨⟨0, 3⟩, "PERSON", 1⟩, ⟨⟨8, 11⟩, "PERSON", 1⟩], by decide⟩,
        .list [.text ⟨"Ask Ann".toList, [⟨⟨4, 7⟩, "PERSON", 1⟩], by decide⟩, .other "null"]]
      input := none } :=
  roundTrips_of_tokensFound (tokensFound_of_no_bracket (by decide) (by decide))

/-- A text that says a token. -/
theorem not_roundTrips_literal : ¬ ∀ payload : RequestPayload Segment, RoundTrips payload := by
  intro h
  have hchoices := congrArg ResponsePayload.choices (h
    { messages := some [.text ⟨"I am Ann".toList, [⟨⟨5, 8⟩, "PERSON", 1⟩], by decide⟩,
        .text ⟨"Who is [PERSON_1]?".toList, [], by decide⟩]
      input := none })
  revert hchoices
  decide

/-- A token may be found in a wrong place, and what is put there be taken for another token that is
put for the first. -/
example : RoundTrips
    { messages := none
      input := some (.list [.text ⟨"A_2".toList, [⟨⟨0, 3⟩, "A", 1⟩], by decide⟩,
        .text ⟨"[[A_1]]".toList, [⟨⟨0, 7⟩, "A", 1⟩], by decide⟩,
        .text ⟨"so [[A_1]]".toList, [], by decide⟩]) } :=
  congrArg ResponsePayload.mk (by decide)

end LlmPort.Pii
