import LlmPort.Pii.Tokenize

/-!
# The token mapping of a payload

`sanitize_payload` of `services/pii/service.py` in mode `tokenize`: the texts of a payload share the
counters, the mapping and the map from values to tokens, through all messages and parts.
-/

namespace LlmPort.Pii

open Ranking Text

/-! ## Payloads text by text -/

section
variable {τ τ' : Type}

def ContentItem.map (f : τ → τ') : ContentItem τ → ContentItem τ'
  | text t => .text (f t)
  | other json => .other json

def Content.map (f : τ → τ') : Content τ → Content τ'
  | text t => .text (f t)
  | list items => .list (items.map (·.map f))
  | other json => .other json

def RequestPayload.map (f : τ → τ') (payload : RequestPayload τ) : RequestPayload τ' where
  messages := payload.messages.map fun messages => messages.map (·.map f)
  input := payload.input.map (·.map f)

end

/-- What the texts of the payload share in the end. -/
def finalState (payload : RequestPayload Segment) : TokenState :=
  (payload.walk tokenizeText .empty).2

/-- The token of a value, or the value itself where it has none. -/
def TokenState.shown (st : TokenState) (value : List Char) : List Char :=
  (st.valueToToken.lookup value).getD value

/-- The payload is the same but for the values that are replaced in its texts, each by its token
wherever it is; tokens and values determine each other; the mapping that is returned is the inverse
of the map from values to tokens; and a text without results is left as it is. -/
structure TokensBijective (payload : RequestPayload Segment) : Prop where
  shown : (sanitizePayload payload).payload =
    payload.map fun seg => render (finalState payload).shown seg.pieces
  issued : ∀ seg ∈ payload.texts, ∀ v, .value v ∈ seg.pieces →
    ∃ token, (finalState payload).valueToToken.lookup v = some token
  distinct : ∀ v v' token, (finalState payload).valueToToken.lookup v = some token →
    (finalState payload).valueToToken.lookup v' = some token → v = v'
  inverse : ∀ token v, ((sanitizePayload payload).tokenMapping.getD []).lookup token = some v ↔
    (finalState payload).valueToToken.lookup v = some token
  undetected : ∀ seg ∈ payload.texts, seg.results = [] →
    render (finalState payload).shown seg.pieces = seg.text

/-! ## Walks -/

section
variable {I J : List Surrogate} {segs segs' : List Segment} {β γ : Type}

/-- Walked after what `I` was issued for, the texts give `b` with the tokens of `J`. -/
def Tokenizes (J : List Surrogate) (walked : StateM TokenState β) (segs : List Segment) (b : β) :
    Prop :=
  ∀ st I, Represents st I → (segs.flatMap (·.found)).foldl issue I <+: J →
    (walked st).1 = b ∧ Represents (walked st).2 ((segs.flatMap (·.found)).foldl issue I)

namespace Tokenizes
variable {walked : StateM TokenState β} {b : β}

theorem pure (b : β) : Tokenizes J (Pure.pure b) [] b :=
  fun _ _ h _ => ⟨rfl, h⟩

theorem map (f : β → γ) (h : Tokenizes J walked segs b) :
    Tokenizes J (f <$> walked) segs (f b) := by
  intro st I hst hJ
  obtain ⟨hb, hrest⟩ := h st I hst hJ
  exact ⟨congrArg f hb, hrest⟩

theorem bind {next : β → StateM TokenState γ} {c : γ} (h : Tokenizes J walked segs b)
    (hnext : Tokenizes J (next b) segs' c) : Tokenizes J (walked >>= next) (segs ++ segs') c := by
  intro st I hst hJ
  rw [List.flatMap_append, List.foldl_append] at hJ ⊢
  obtain ⟨hb, hmid⟩ := h st I hst (prefix_foldl_issue.trans hJ)
  have hrest := hnext (walked st).2 _ hmid hJ
  change (next (walked st).1 (walked st).2).1 = c ∧ Represents (next (walked st).1 _).2 _
  rw [hb]
  exact hrest

theorem mapM {walk : β → StateM TokenState γ} {texts : β → List Segment} {f : β → γ}
    (h : ∀ c, Tokenizes J (walk c) (texts c) (f c)) (cs : List β) :
    Tokenizes J (cs.mapM walk) (cs.flatMap texts) (cs.map f) := by
  induction cs with
  | nil => exact Tokenizes.pure []
  | cons c cs ih =>
    rw [List.mapM_cons, List.flatMap_cons]
    have hrest : Tokenizes J (cs.mapM walk >>= fun rest => Pure.pure (f c :: rest))
        (cs.flatMap texts ++ []) (f c :: cs.map f) := ih.bind (Tokenizes.pure _)
    rw [List.append_nil] at hrest
    exact (h c).bind hrest

end Tokenizes

variable (J) in
/-- The payload with the tokens of `J` for the values. -/
theorem tokenizes_text (seg : Segment) :
    Tokenizes J (tokenizeText seg) [seg] (render (tokenOf J) seg.pieces) := by
  intro st I hst hJ
  rw [List.flatMap_singleton] at hJ ⊢
  exact hst.tokenizeText hJ

theorem tokenizes_item (item : ContentItem Segment) :
    Tokenizes J (item.walk tokenizeText) item.texts
      (item.map fun seg => render (tokenOf J) seg.pieces) := by
  cases item with
  | text seg => exact (tokenizes_text J seg).map _
  | other json => exact Tokenizes.pure _

theorem tokenizes_content (content : Content Segment) :
    Tokenizes J (content.walk tokenizeText) content.texts
      (content.map fun seg => render (tokenOf J) seg.pieces) := by
  cases content with
  | text seg => exact (tokenizes_text J seg).map _
  | list items => exact (Tokenizes.mapM tokenizes_item items).map _
  | other json => exact Tokenizes.pure _

theorem tokenizes_payload (payload : RequestPayload Segment) :
    Tokenizes J (payload.walk tokenizeText) payload.texts
      (payload.map fun seg => render (tokenOf J) seg.pieces) := by
  have hmessages : Tokenizes J (walkMessages tokenizeText payload.messages)
      ((payload.messages.getD []).flatMap (·.texts))
      (payload.messages.map fun messages =>
        messages.map (·.map fun seg => render (tokenOf J) seg.pieces)) := by
    cases payload.messages with
    | none => exact Tokenizes.pure _
    | some messages => exact (Tokenizes.mapM tokenizes_content messages).map _
  have hinput : Tokenizes J (walkInput tokenizeText payload.input)
      ((payload.input.map (·.texts)).getD [])
      (payload.input.map (·.map fun seg => render (tokenOf J) seg.pieces)) := by
    cases payload.input with
    | none => exact Tokenizes.pure _
    | some input => exact (tokenizes_content input).map _
  have hall : Tokenizes J (walkInput tokenizeText payload.input >>= fun input =>
      Pure.pure (RequestPayload.mk (payload.messages.map fun messages =>
        messages.map (·.map fun seg => render (tokenOf J) seg.pieces)) input))
      ((payload.input.map (·.texts)).getD [] ++ [])
      (payload.map fun seg => render (tokenOf J) seg.pieces) :=
    hinput.bind (Tokenizes.pure _)
  rw [List.append_nil] at hall
  exact hmessages.bind hall

/-! ## The dicts -/

theorem lookup_map_iff {α κ ν : Type} [BEq κ] [LawfulBEq κ] {l : List α} {key : α → κ} {value : α → ν}
    {k : κ} {v : ν} (hkeys : (l.map key).Nodup) :
    (l.map fun a => (key a, value a)).lookup k = some v ↔ ∃ a ∈ l, key a = k ∧ value a = v := by
  induction l with
  | nil => simp
  | cons a l ih =>
    obtain ⟨hnew, hrest⟩ := List.nodup_cons.1 hkeys
    rw [List.map_cons, List.lookup_cons]
    by_cases hk : k = key a
    · subst hk
      rw [beq_self_eq_true, Option.some.injEq]
      constructor
      · exact fun hv => ⟨a, List.mem_cons_self, rfl, hv⟩
      · rintro ⟨b, hb, hkey, hv⟩
        rcases List.mem_cons.1 hb with rfl | hb
        · exact hv
        · exact (hnew (hkey ▸ List.mem_map_of_mem hb)).elim
    · rw [beq_eq_false_iff_ne.2 hk]
      refine (ih hrest).trans ⟨?_, ?_⟩
      · rintro ⟨b, hb, h⟩
        exact ⟨b, List.mem_cons_of_mem _ hb, h⟩
      · rintro ⟨b, hb, hkey, hv⟩
        rcases List.mem_cons.1 hb with rfl | hb
        · exact (hk hkey.symm).elim
        · exact ⟨b, hb, hkey, hv⟩

namespace Represents
variable {st : TokenState} {v token : List Char}

theorem lookup_value_iff (h : Represents st I) :
    st.valueToToken.lookup v = some token ↔ ∃ s ∈ I, s.value = v ∧ s.token = token := by
  rw [h.values]
  exact lookup_map_iff h.nodup

theorem lookup_token_iff (h : Represents st I) :
    st.tokenMapping.lookup token = some v ↔ ∃ s ∈ I, s.token = token ∧ s.value = v := by
  rw [h.mapping]
  exact lookup_map_iff h.tokens

theorem shown_eq (h : Represents st I) : st.shown = tokenOf I := by
  funext v
  rw [TokenState.shown, tokenOf, h.values, lookup_values]

end Represents

end

theorem render_pieces_of_undetected {seg : Segment} (h : seg.results = [])
    (f : List Char → List Char) : render f seg.pieces = seg.text := by
  have hkept : seg.kept = [] := by
    rw [Segment.kept, h]
    rfl
  rw [Segment.pieces, hkept, piecesBefore, List.take_length]
  simp [Piece.shown]

/-- For every payload, values and tokens are in bijection. -/
theorem tokensBijective (payload : RequestPayload Segment) : TokensBijective payload := by
  obtain ⟨hpayload, hstate⟩ := tokenizes_payload payload .empty [] Represents.empty
    (List.prefix_refl (surrogates payload.texts))
  have hmapping : (sanitizePayload payload).tokenMapping.getD [] =
      (finalState payload).tokenMapping := by
    change (if (finalState payload).tokenMapping = [] then none
      else some (finalState payload).tokenMapping).getD [] = _
    split
    next h => exact h.symm
    next => rfl
  have hshown : (finalState payload).shown = tokenOf (surrogates payload.texts) := hstate.shown_eq
  refine ⟨?_, ?_, ?_, ?_, ?_⟩
  · rw [hshown]
    exact hpayload
  · intro seg hseg v hv
    obtain ⟨x, hx, rfl⟩ := seg.found_of_mem_pieces hv
    obtain ⟨s, hs, hvalue⟩ := exists_of_foldl_issue (I := [])
      (List.mem_flatMap.2 ⟨seg, hseg, hx⟩ : x ∈ payload.texts.flatMap (·.found))
    exact ⟨s.token, hstate.lookup_value_iff.2 ⟨s, hs, hvalue, rfl⟩⟩
  · intro v v' token hv hv'
    obtain ⟨s, hs, rfl, htoken⟩ := hstate.lookup_value_iff.1 hv
    obtain ⟨s', hs', rfl, htoken'⟩ := hstate.lookup_value_iff.1 hv'
    rw [List.inj_on_of_nodup_map hstate.tokens hs hs' (htoken.trans htoken'.symm)]
  · intro token v
    rw [hmapping]
    refine hstate.lookup_token_iff.trans (Iff.trans ?_ hstate.lookup_value_iff.symm)
    exact exists_congr fun s => and_congr_right fun _ => and_comm
  · intro seg _ hnone
    exact render_pieces_of_undetected hnone _

end LlmPort.Pii
