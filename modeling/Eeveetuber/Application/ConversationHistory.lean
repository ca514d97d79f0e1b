import Eeveetuber.Foundation.Bisection
import Eeveetuber.Foundation.JsonText
import Eeveetuber.Foundation.SortByKey
import Eeveetuber.Storage.ConversationRepository

/-!
# The recent history of a conversation

What a model is shown of the messages before its turn. Of the records that are loaded, those
of the session and of an earlier generation are eligible
(`Eeveetuber.RecentConversationHistoryPolicy.eligible`); the newest of them are taken, one at a
time and the newest first, each as far as the whole still fits
(`Eeveetuber.RecentConversationHistoryPolicy.fitMessage`). The main result is
`Eeveetuber.RecentConversationHistoryPolicy.compile_bounded`: **the history is as short as its
policy says, in order, and every message of it is the beginning of an eligible record**.
-/

namespace Eeveetuber

open Foundation Storage

/-! ### Histories -/

@[ext]
structure RecentConversationHistoryPolicy where
  maxMessages : ℕ := 12
  maxChars : ℕ := 6000
  maxMessageChars : ℕ := 1500
  loadTimeoutMs : ℕ := 50
  maxMessageChars_pos : 0 < maxMessageChars := by decide
  maxMessages_le : maxMessages ≤ 1000 := by decide

instance : DecidableEq RecentConversationHistoryPolicy := fun _ _ =>
  decidable_of_iff _ RecentConversationHistoryPolicy.ext_iff.symm

/-- The bounds of the default policy. -/
theorem RecentConversationHistoryPolicy.defaultMessageChars_pos : 0 < 1500 := by decide

theorem RecentConversationHistoryPolicy.defaultMessages_le : 12 ≤ 1000 := by decide

structure RecentHistoryMessage where
  messageId : Text
  sequence : ℕ
  generation : ℤ
  role : MessageRole
  content : Text
  truncated : Bool
deriving DecidableEq

structure RecentConversationHistory where
  messages : List RecentHistoryMessage := []
  renderedContext : Text := []
deriving DecidableEq

/-- `character_count`. -/
def RecentConversationHistory.characterCount (history : RecentConversationHistory) : ℕ :=
  history.renderedContext.length

/-! ### Rendering -/

/-- The header of a history. -/
def historyHeader : Text :=
  ("<recent_conversation instruction_authority=\"false\" data_only=\"true\" " ++
    "may_be_incomplete=\"true\">").toList

/-- What is rendered of a message. -/
def renderMessage (message : RecentHistoryMessage) : Text :=
  jsonObject
    [("message_id".toList, jsonString message.messageId),
      ("sequence".toList, jsonInt message.sequence),
      ("generation".toList, jsonInt message.generation),
      ("role".toList, jsonString message.role.value),
      ("content".toList, jsonString message.content),
      ("truncated".toList, jsonBool message.truncated)]

/-- `_render`. -/
def renderHistory (messages : List RecentHistoryMessage) : Text :=
  ['\n'].intercalate
    [historyHeader, jsonArray (messages.map renderMessage), "</recent_conversation>".toList]

/-! ### Compiling -/

/-- The key records are sorted by. -/
def historyKey (record : MessageRecord) : ℕ ×ₗ Text :=
  toLex (record.sequence, record.messageId)

/-- The key of a message of a history. -/
def RecentHistoryMessage.key (message : RecentHistoryMessage) : ℕ ×ₗ Text :=
  toLex (message.sequence, message.messageId)

namespace RecentConversationHistoryPolicy

variable (policy : RecentConversationHistoryPolicy)

def enabled : Bool :=
  decide (0 < policy.maxMessages ∧ 0 < policy.maxChars ∧ 0 < policy.loadTimeoutMs)

def fetchLimit : ℕ := min 1000 (max policy.maxMessages (policy.maxMessages * 2))

/-- What the history may have of a record of its session. -/
def eligibleMessage (beforeGeneration : ℤ) (record : MessageRecord) :
    Option RecentHistoryMessage :=
  if record.role = .user ∨ record.role = .assistant then
    match record.metadata.lookup "generation".toList with
    | some (.integer generation) =>
      let content := strip record.content
      let bounded := content.take policy.maxMessageChars
      if generation < 0 ∨ generation ≥ beforeGeneration then none
      else if content = [] then none
      else some {
        messageId := record.messageId
        sequence := record.sequence
        generation := generation
        role := record.role
        content := bounded
        truncated := decide (bounded.length < content.length) }
    | _ => none
  else none

/-- One record: the identifiers seen, and the messages there are. -/
def eligibleStep (sessionId : Text) (beforeGeneration : ℤ)
    (seen : List Text × List RecentHistoryMessage) (record : MessageRecord) :
    List Text × List RecentHistoryMessage :=
  if record.messageId ∈ seen.1 ∨ record.sessionId ≠ sessionId then seen
  else
    (record.messageId :: seen.1,
      seen.2 ++ (policy.eligibleMessage beforeGeneration record).toList)

/-- The eligible messages. -/
def eligible (records : List MessageRecord) (sessionId : Text) (beforeGeneration : ℤ) :
    List RecentHistoryMessage :=
  ((records.mergeSort fun a b => decide (historyKey a ≤ historyKey b)).foldl
    (policy.eligibleStep sessionId beforeGeneration) ([], [])).2

/-- A message cut down. -/
def cut (message : RecentHistoryMessage) (midpoint : ℤ) : RecentHistoryMessage :=
  { message with content := message.content.take midpoint.toNat, truncated := true }

/-- Whether so much of a message fits. -/
def cutFits (message : RecentHistoryMessage) (newerMessages : List RecentHistoryMessage)
    (midpoint : ℤ) : Bool :=
  decide (0 < midpoint ∧
    (renderHistory (cut message midpoint :: newerMessages)).length ≤ policy.maxChars)

/-- `_fit_message`. -/
def fitMessage (message : RecentHistoryMessage) (newerMessages : List RecentHistoryMessage) :
    Option RecentHistoryMessage :=
  if (renderHistory (message :: newerMessages)).length ≤ policy.maxChars then some message
  else
    (bisect (policy.cutFits message newerMessages) 0 message.content.length none).map
      (cut message)

/-- One message, before the newer ones that were selected. -/
def selectMessage (message : RecentHistoryMessage) (selected : List RecentHistoryMessage) :
    List RecentHistoryMessage :=
  (policy.fitMessage message selected).toList ++ selected

/-- The messages that are selected of the eligible ones. -/
def selectMessages (messages : List RecentHistoryMessage) : List RecentHistoryMessage :=
  (messages.drop (messages.length - policy.maxMessages)).foldr policy.selectMessage []

/-- `RecentConversationHistoryCompiler.compile`. -/
def compile (records : List MessageRecord) (sessionId : Text) (beforeGeneration : ℤ) :
    RecentConversationHistory :=
  if policy.enabled = false then {}
  else
    let selected := policy.selectMessages (policy.eligible records sessionId beforeGeneration)
    if selected = [] then {}
    else { messages := selected, renderedContext := renderHistory selected }

/-! ### Eligible records -/

variable {policy} {record : MessageRecord} {records : List MessageRecord} {sessionId : Text}
  {beforeGeneration : ℤ} {message fitted : RecentHistoryMessage}
  {messages : List RecentHistoryMessage}

/-- A message of a history comes from a record: the record is eligible, and the message is the
beginning of it. -/
structure ComesFrom (policy : RecentConversationHistoryPolicy) (sessionId : Text)
    (beforeGeneration : ℤ) (message : RecentHistoryMessage) (record : MessageRecord) : Prop where
  messageId : message.messageId = record.messageId
  sequence : message.sequence = record.sequence
  session : record.sessionId = sessionId
  role : message.role = record.role
  role_eligible : record.role = .user ∨ record.role = .assistant
  generation : record.metadata.lookup "generation".toList = some (.integer message.generation)
  generation_bounds : 0 ≤ message.generation ∧ message.generation < beforeGeneration
  content_ne_nil : message.content ≠ []
  content_isPrefix : message.content <+: strip record.content
  content_length : message.content.length ≤ policy.maxMessageChars

theorem comesFrom_of_eligibleMessage (hsession : record.sessionId = sessionId)
    (h : policy.eligibleMessage beforeGeneration record = some message) :
    ComesFrom policy sessionId beforeGeneration message record := by
  rw [eligibleMessage] at h
  split at h
  · rename_i hrole
    split at h
    · rename_i generation hgeneration
      obtain ⟨hbounds, h⟩ := (Option.ite_none_left_eq_some).mp h
      obtain ⟨hcontent, h⟩ := (Option.ite_none_left_eq_some).mp h
      obtain rfl := Option.some.inj h
      rw [not_or, not_lt, ge_iff_le, not_le] at hbounds
      exact {
        messageId := rfl
        sequence := rfl
        session := hsession
        role := rfl
        role_eligible := hrole
        generation := hgeneration
        generation_bounds := hbounds
        content_ne_nil := fun hnil => (List.take_eq_nil_iff.mp hnil).elim
          policy.maxMessageChars_pos.ne' hcontent
        content_isPrefix := List.take_prefix _ _
        content_length := List.length_take_le _ _ }
    · cases h
  · cases h

/-- **The messages come from records of the session, one for each identifier**, in the order
of the records. -/
theorem eligibleStep_foldl (policy : RecentConversationHistoryPolicy) (sessionId : Text)
    (beforeGeneration : ℤ) (records : List MessageRecord)
    (seen : List Text × List RecentHistoryMessage) :
    ∃ kept : List MessageRecord, kept.Sublist records ∧ (kept.map (·.messageId)).Nodup ∧
      (∀ record ∈ kept, record.sessionId = sessionId ∧ record.messageId ∉ seen.1) ∧
      (records.foldl (policy.eligibleStep sessionId beforeGeneration) seen).2 =
        seen.2 ++ kept.filterMap (policy.eligibleMessage beforeGeneration) := by
  induction records generalizing seen with
  | nil => exact ⟨[], List.Sublist.refl [], List.nodup_nil, nofun, (List.append_nil _).symm⟩
  | cons record records ih =>
    rw [List.foldl_cons]
    by_cases hskip : record.messageId ∈ seen.1 ∨ record.sessionId ≠ sessionId
    · obtain ⟨kept, hsublist, hnodup, hkept, heq⟩ := ih seen
      rw [eligibleStep, if_pos hskip]
      exact ⟨kept, hsublist.cons record, hnodup, hkept, heq⟩
    · rw [eligibleStep, if_neg hskip]
      rw [not_or, not_not] at hskip
      obtain ⟨kept, hsublist, hnodup, hkept, heq⟩ := ih (record.messageId :: seen.1,
        seen.2 ++ (policy.eligibleMessage beforeGeneration record).toList)
      refine ⟨record :: kept, hsublist.cons_cons record, ?_, ?_, ?_⟩
      · rw [List.map_cons, List.nodup_cons]
        refine ⟨fun hmem => ?_, hnodup⟩
        obtain ⟨other, hother, hid⟩ := List.mem_map.mp hmem
        exact (hkept other hother).2 (hid ▸ List.mem_cons_self)
      · rintro other (_ | ⟨_, hother⟩)
        · exact ⟨hskip.2, hskip.1⟩
        · exact (hkept other hother).imp_right fun hnot hmem => hnot (List.mem_cons_of_mem _ hmem)
      · rw [heq, List.filterMap_cons]
        rcases policy.eligibleMessage beforeGeneration record with _ | message
        · simp
        · simp

/-- The records that the eligible messages come from, in order. -/
theorem eligible_eq (policy : RecentConversationHistoryPolicy) (records : List MessageRecord)
    (sessionId : Text) (beforeGeneration : ℤ) :
    ∃ kept : List MessageRecord, (∀ record ∈ kept, record ∈ records ∧
        record.sessionId = sessionId) ∧ (kept.map (·.messageId)).Nodup ∧
      kept.Pairwise (fun a b => historyKey a < historyKey b) ∧
      policy.eligible records sessionId beforeGeneration =
        kept.filterMap (policy.eligibleMessage beforeGeneration) := by
  obtain ⟨kept, hsublist, hnodup, hkept, heq⟩ := eligibleStep_foldl policy sessionId
    beforeGeneration (records.mergeSort fun a b => decide (historyKey a ≤ historyKey b)) ([], [])
  refine ⟨kept, fun record hrecord => ?_, hnodup, ?_, heq⟩
  · exact ⟨(List.mergeSort_perm _ _).mem_iff.mp (hsublist.subset hrecord),
      (hkept record hrecord).1⟩
  · -- in order of their keys, and no two keys are the same, since no two identifiers are
    have hle := (pairwise_mergeSort_key historyKey records).sublist hsublist
    have hne := List.pairwise_map.mp hnodup
    exact hle.imp₂ (fun a b hab hids => lt_of_le_of_ne hab fun hkey =>
      hids (congrArg (fun k => (ofLex k).2) hkey)) hne

theorem eligible_comesFrom
    (h : message ∈ policy.eligible records sessionId beforeGeneration) :
    ∃ record ∈ records, ComesFrom policy sessionId beforeGeneration message record := by
  obtain ⟨kept, hkept, -, -, heq⟩ := eligible_eq policy records sessionId beforeGeneration
  rw [heq] at h
  obtain ⟨record, hrecord, hmessage⟩ := List.mem_filterMap.mp h
  obtain ⟨hmem, hsession⟩ := hkept record hrecord
  exact ⟨record, hmem, comesFrom_of_eligibleMessage hsession hmessage⟩

theorem key_of_eligibleMessage
    (h : policy.eligibleMessage beforeGeneration record = some message) :
    message.key = historyKey record := by
  have hfrom := comesFrom_of_eligibleMessage rfl h
  rw [RecentHistoryMessage.key, historyKey, hfrom.sequence, hfrom.messageId]

/-- **Eligible messages are in order**, strictly. -/
theorem eligible_pairwise :
    (policy.eligible records sessionId beforeGeneration).Pairwise fun a b => a.key < b.key := by
  obtain ⟨kept, -, -, hpairwise, heq⟩ := eligible_eq policy records sessionId beforeGeneration
  rw [heq]
  refine hpairwise.filterMap _ fun a b hab m hm n hn => ?_
  rw [key_of_eligibleMessage hm, key_of_eligibleMessage hn]
  exact hab

theorem eligible_nodup :
    ((policy.eligible records sessionId beforeGeneration).map (·.messageId)).Nodup := by
  obtain ⟨kept, -, hnodup, -, heq⟩ := eligible_eq policy records sessionId beforeGeneration
  rw [heq, List.Nodup, List.pairwise_map]
  refine (List.pairwise_map.mp hnodup).filterMap _ fun a b hab m hm n hn => ?_
  rw [(comesFrom_of_eligibleMessage rfl hm).messageId,
    (comesFrom_of_eligibleMessage rfl hn).messageId]
  exact hab

/-! ### Selected messages -/

/-- A message, or the beginning of it. -/
structure Shortens (fitted message : RecentHistoryMessage) : Prop where
  key : fitted.key = message.key
  generation : fitted.generation = message.generation
  role : fitted.role = message.role
  content_isPrefix : fitted.content <+: message.content
  content_ne_nil : message.content ≠ [] → fitted.content ≠ []

theorem Shortens.refl (message : RecentHistoryMessage) : Shortens message message where
  key := rfl
  generation := rfl
  role := rfl
  content_isPrefix := List.prefix_rfl
  content_ne_nil := id

theorem shortens_cut {midpoint : ℤ} (h : 0 < midpoint) :
    Shortens (cut message midpoint) message where
  key := rfl
  generation := rfl
  role := rfl
  content_isPrefix := List.take_prefix _ _
  content_ne_nil hcontent hnil := (List.take_eq_nil_iff.mp hnil).elim (by omega) hcontent

theorem ComesFrom.shortens (h : ComesFrom policy sessionId beforeGeneration message record)
    (hfitted : Shortens fitted message) :
    ComesFrom policy sessionId beforeGeneration fitted record where
  messageId := (congrArg (fun k => (ofLex k).2) hfitted.key).trans h.messageId
  sequence := (congrArg (fun k => (ofLex k).1) hfitted.key).trans h.sequence
  session := h.session
  role := hfitted.role.trans h.role
  role_eligible := h.role_eligible
  generation := hfitted.generation ▸ h.generation
  generation_bounds := hfitted.generation ▸ h.generation_bounds
  content_ne_nil := hfitted.content_ne_nil h.content_ne_nil
  content_isPrefix := hfitted.content_isPrefix.trans h.content_isPrefix
  content_length := hfitted.content_isPrefix.length_le.trans h.content_length

/-- **What is fitted in fits**, and is the message or the beginning of it. -/
theorem fitMessage_eq_some (h : policy.fitMessage message messages = some fitted) :
    Shortens fitted message ∧ (renderHistory (fitted :: messages)).length ≤ policy.maxChars := by
  rw [fitMessage] at h
  split at h
  · rename_i hfits
    obtain rfl := Option.some.inj h
    exact ⟨.refl message, hfits⟩
  · obtain ⟨midpoint, hfound, rfl⟩ := Option.map_eq_some_iff.mp h
    obtain ⟨hpos, hfits⟩ := of_decide_eq_true (bisect_accepts hfound).1
    exact ⟨shortens_cut hpos, hfits⟩

/-- A message that is longer when it is written makes the whole no shorter. -/
theorem length_renderHistory_le {message' : RecentHistoryMessage}
    (h : (renderMessage message).length ≤ (renderMessage message').length) :
    (renderHistory (message :: messages)).length ≤
      (renderHistory (message' :: messages)).length := by
  simp only [renderHistory, List.map_cons, jsonArray, jsonJoin_cons, List.intercalate_cons_cons,
    List.intercalate_singleton, List.length_append]
  omega

theorem length_renderMessage_cut_le {i j : ℤ} (h : i ≤ j) :
    (renderMessage (cut message i)).length ≤ (renderMessage (cut message j)).length := by
  have hcontent := length_jsonString_le
    (List.take_prefix_take_left (l := message.content) (Int.toNat_le_toNat h))
  simp only [renderMessage, cut, jsonObject, List.map_cons, jsonJoin_cons, List.flatMap_cons,
    List.length_append]
  omega

/-- **A message is cut down no further than to the longest beginning that fits**, if there is
one of two characters or more. -/
theorem le_length_fitMessage {k : ℕ} (htwo : 2 ≤ k) (hle : k ≤ message.content.length)
    (hfits : (renderHistory (cut message k :: messages)).length ≤ policy.maxChars) :
    ∃ fitted, policy.fitMessage message messages = some fitted ∧ k ≤ fitted.content.length := by
  rw [fitMessage]
  split_ifs with hwhole
  · exact ⟨message, rfl, hle⟩
  · have hdown : ∀ i j : ℤ, 0 < i → i ≤ j → policy.cutFits message messages j = true →
        policy.cutFits message messages i = true := by
      intro i j hi hij hj
      exact decide_eq_true ⟨hi, (length_renderHistory_le
        (length_renderMessage_cut_le hij)).trans (of_decide_eq_true hj).2⟩
    have hk : policy.cutFits message messages k = true := decide_eq_true ⟨by omega, hfits⟩
    obtain ⟨m, hfound, hkm⟩ := le_of_bisect hdown le_rfl hk (by omega) (by omega)
      (Int.ofNat_le.mpr hle)
    have hbounds := (bisect_accepts hfound).2
    refine ⟨cut message m, by rw [hfound]; rfl, ?_⟩
    rw [cut, List.length_take]
    omega

/-- What holds of the selected messages, whatever they are selected of: together they fit, and
one after the other they shorten some of the messages. -/
structure Selected (policy : RecentConversationHistoryPolicy)
    (messages selected : List RecentHistoryMessage) : Prop where
  fits : selected = [] ∨ (renderHistory selected).length ≤ policy.maxChars
  keys : (selected.map (·.key)).Sublist (messages.map (·.key))
  shortens : ∀ fitted ∈ selected, ∃ message ∈ messages, Shortens fitted message

theorem Selected.selectMessage {selected : List RecentHistoryMessage}
    (h : Selected policy messages selected) (message : RecentHistoryMessage) :
    Selected policy (message :: messages) (policy.selectMessage message selected) := by
  rw [RecentConversationHistoryPolicy.selectMessage]
  rcases hfit : policy.fitMessage message selected with _ | fitted
  · exact ⟨h.fits, h.keys.cons _, fun fitted hmem =>
      (h.shortens fitted hmem).imp fun _ => .imp_left (List.mem_cons_of_mem _)⟩
  · obtain ⟨hshortens, hfits⟩ := fitMessage_eq_some hfit
    refine ⟨.inr hfits, ?_, ?_⟩
    · rw [Option.toList_some, List.singleton_append, List.map_cons, List.map_cons, hshortens.key]
      exact h.keys.cons_cons _
    · rintro other (_ | ⟨_, hother⟩)
      · exact ⟨message, List.mem_cons_self, hshortens⟩
      · exact (h.shortens other hother).imp fun _ => .imp_left (List.mem_cons_of_mem _)

theorem selected_foldr (policy : RecentConversationHistoryPolicy)
    (messages : List RecentHistoryMessage) :
    Selected policy messages (messages.foldr policy.selectMessage []) := by
  induction messages with
  | nil => exact ⟨.inl rfl, List.Sublist.refl [], nofun⟩
  | cons message messages ih => exact ih.selectMessage message

theorem selected_selectMessages (policy : RecentConversationHistoryPolicy)
    (messages : List RecentHistoryMessage) :
    Selected policy messages (policy.selectMessages messages) where
  fits := (selected_foldr policy _).fits
  keys := (selected_foldr policy _).keys.trans ((List.drop_sublist _ _).map _)
  shortens fitted h := ((selected_foldr policy _).shortens fitted h).imp fun _ =>
    .imp_left List.mem_of_mem_drop

theorem length_selectMessages_le (messages : List RecentHistoryMessage) :
    (policy.selectMessages messages).length ≤ policy.maxMessages := by
  have h := (selected_foldr policy
    (messages.drop (messages.length - policy.maxMessages))).keys.length_le
  rw [List.length_map, List.length_map, List.length_drop] at h
  exact h.trans (by omega)

/-! ### What holds of every history -/

/-- **A history is empty, or it is what is selected of the eligible messages.** -/
theorem compile_cases (policy : RecentConversationHistoryPolicy) (records : List MessageRecord)
    (sessionId : Text) (beforeGeneration : ℤ) :
    policy.compile records sessionId beforeGeneration = {} ∨
      ∃ selected, selected = policy.selectMessages
          (policy.eligible records sessionId beforeGeneration) ∧ selected ≠ [] ∧
        policy.compile records sessionId beforeGeneration =
          { messages := selected, renderedContext := renderHistory selected } := by
  by_cases hdisabled : policy.enabled = false
  · exact .inl (if_pos hdisabled)
  · rw [compile, if_neg hdisabled]
    by_cases hnone : policy.selectMessages
        (policy.eligible records sessionId beforeGeneration) = []
    · exact .inl (if_pos hnone)
    · exact .inr ⟨_, rfl, hnone, if_neg hnone⟩

/-- **The history is bounded, and every message of it is eligible**: of whatever records it is
compiled, it is no longer than the policy has it, neither in characters nor in messages; its
messages are in order, with distinct identifiers; and each comes from a record. -/
theorem compile_bounded (policy : RecentConversationHistoryPolicy) (records : List MessageRecord)
    (sessionId : Text) (beforeGeneration : ℤ) :
    let history := policy.compile records sessionId beforeGeneration
    history.characterCount ≤ policy.maxChars ∧
    history.messages.length ≤ policy.maxMessages ∧
    history.messages.Pairwise (fun a b => a.key < b.key) ∧
    (history.messages.map (·.messageId)).Nodup ∧
    ∀ message ∈ history.messages, ∃ record ∈ records,
      ComesFrom policy sessionId beforeGeneration message record := by
  intro history
  obtain hempty | ⟨selected, heq, hne, hcompile⟩ :=
    compile_cases policy records sessionId beforeGeneration
  · rw [show history = {} from hempty]
    exact ⟨Nat.zero_le _, Nat.zero_le _, List.Pairwise.nil, List.nodup_nil, nofun⟩
  · rw [show history = _ from hcompile]
    have hselected := selected_selectMessages policy
      (policy.eligible records sessionId beforeGeneration)
    rw [← heq] at hselected
    refine ⟨hselected.fits.resolve_left hne, heq ▸ length_selectMessages_le _, ?_, ?_, ?_⟩
    · exact List.pairwise_map.mp
        ((List.pairwise_map.mpr eligible_pairwise).sublist hselected.keys)
    · have hids := hselected.keys.map fun k => (ofLex k).2
      rw [List.map_map, List.map_map] at hids
      exact eligible_nodup.sublist hids
    · intro fitted hfitted
      obtain ⟨message, hmessage, hshortens⟩ := hselected.shortens fitted hfitted
      exact (eligible_comesFrom hmessage).imp fun _ => .imp_right fun h => h.shortens hshortens

end RecentConversationHistoryPolicy

end Eeveetuber
