import Eeveetuber.Foundation.Neighbours
import Eeveetuber.Foundation.SortByKey
import Eeveetuber.Storage.ConversationRepository

/-!
# The messages around a message

`Eeveetuber.Storage.Conversations.recallAround` returns a message with the messages of its
session whose sequences are near its own. A sequence may be missing: a turn reserves one for its
reply, which is never written when the turn is cancelled. So fewer messages may be returned than
were asked for, though there are more.

What is returned is `Eeveetuber.Storage.Recalls`: **never more than the nearest messages that were
asked for, and these exactly when they are all near**; and whether there are others is always told
right (`Eeveetuber.Storage.Conversations.recalls_recallAround`). All of it is about the sequences in
order, which are distinct as the table keeps them
(`Eeveetuber.Storage.Conversations.sequencesUnique_append`).
-/

namespace Eeveetuber.Storage

open Foundation

structure RecallWindow where
  needleMessageId : Text
  sessionId : Text
  messages : List MessageRecord
  hasBefore : Bool
  hasAfter : Bool
deriving DecidableEq

/-- What a recall raises. -/
inductive RecallError where
  | value (message : String)
  | recordNotFound (messageId : Text)
deriving DecidableEq

namespace Conversations

variable {store : Conversations} {needle : MessageRecord} {before after : ℕ}

/-- The messages of a session whose sequences are within bounds, in their order. -/
def window (store : Conversations) (sessionId : Text) (low high : ℤ) : List MessageRecord :=
  (store.messages.values.filter fun row =>
    row.sessionId = sessionId ∧ low ≤ row.sequence ∧ row.sequence ≤ high).mergeSort
      fun a b => decide (a.sequence ≤ b.sequence)

/-- `MessageRepository.recall_around`. -/
def recallAround (store : Conversations) (messageId : Text) (before after : ℤ) :
    Except RecallError RecallWindow :=
  if ¬(0 ≤ before ∧ before ≤ 50) ∨ ¬(0 ≤ after ∧ after ≤ 50) then
    .error (.value "before and after must be between 0 and 50")
  else
    match store.messages.find? messageId with
    | none => .error (.recordNotFound messageId)
    | some needle =>
      let low := needle.sequence - before
      let high := needle.sequence + after
      .ok {
        needleMessageId := messageId
        sessionId := needle.sessionId
        messages := store.window needle.sessionId low high
        hasBefore := store.messages.values.any fun row =>
          row.sessionId = needle.sessionId ∧ row.sequence < low
        hasAfter := store.messages.values.any fun row =>
          row.sessionId = needle.sessionId ∧ high < row.sequence }

/-! ### Sequences -/

/-- `uq_messages_session_sequence`: a sequence is that of one message of a session. -/
def SequencesUnique (store : Conversations) : Prop :=
  ∀ a ∈ store.messages, ∀ b ∈ store.messages, a.sessionId = b.sessionId →
    a.sequence = b.sequence → a = b

/-- **The table keeps sequences apart.** -/
theorem sequencesUnique_append {record : MessageRecord} {appended : Conversations}
    (h : store.SequencesUnique) (happend : store.append record = .ok appended) :
    appended.SequencesUnique := by
  rw [append] at happend
  split at happend
  · cases happend
  split at happend
  · split_ifs at happend
    obtain rfl := Except.ok.inj happend
    exact h
  · split_ifs at happend with hused
    obtain rfl := Except.ok.inj happend
    have hfree : ∀ row ∈ store.messages, row.sessionId = record.sessionId →
        row.sequence ≠ record.sequence := by
      intro row hrow hsession hsequence
      exact hused (List.any_eq_true.mpr ⟨row, hrow, decide_eq_true ⟨hsession, hsequence⟩⟩)
    intro a ha b hb hsession hsequence
    obtain rfl | ⟨hold, -⟩ := Keyed.mem_insert.mp ha
    · obtain rfl | ⟨hold', -⟩ := Keyed.mem_insert.mp hb
      · rfl
      · exact absurd hsequence.symm (hfree b hold' hsession.symm)
    · obtain rfl | ⟨hold', -⟩ := Keyed.mem_insert.mp hb
      · exact absurd hsequence (hfree a hold hsession)
      · exact h a hold b hold' hsession hsequence

/-- The messages of a session, in the order of their sequences. -/
def inOrder (store : Conversations) (sessionId : Text) : List MessageRecord :=
  (store.messages.values.filter fun row => row.sessionId = sessionId).mergeSort
    fun a b => decide (a.sequence ≤ b.sequence)

theorem mem_inOrder {sessionId : Text} {row : MessageRecord} :
    row ∈ store.inOrder sessionId ↔ row ∈ store.messages ∧ row.sessionId = sessionId := by
  rw [inOrder, (List.mergeSort_perm _ _).mem_iff, List.mem_filter, decide_eq_true_eq]
  exact Iff.rfl

/-- The messages of the session before a message. -/
def earlier (store : Conversations) (needle : MessageRecord) : List MessageRecord :=
  (store.inOrder needle.sessionId).filter fun row => row.sequence < needle.sequence

/-- The messages of the session after a message. -/
def later (store : Conversations) (needle : MessageRecord) : List MessageRecord :=
  (store.inOrder needle.sessionId).filter fun row => needle.sequence < row.sequence

section Unique

variable (h : store.SequencesUnique)

include h

theorem nodup_sequences (sessionId : Text) :
    ((store.messages.values.filter fun row => row.sessionId = sessionId).map
      MessageRecord.sequence).Nodup := by
  refine List.Nodup.map_on ?_ (store.messages.nodup_values.filter _)
  intro a ha b hb hsequence
  rw [List.mem_filter, decide_eq_true_eq] at ha hb
  exact h a ha.1 b hb.1 (ha.2.trans hb.2.symm) hsequence

theorem pairwise_inOrder (sessionId : Text) :
    (store.inOrder sessionId).Pairwise fun a b => a.sequence < b.sequence :=
  pairwise_lt_mergeSort_key MessageRecord.sequence (nodup_sequences h sessionId)

/-- What is selected is what is within the bounds, of all that is in order. -/
theorem window_eq (sessionId : Text) (low high : ℤ) :
    store.window sessionId low high =
      (store.inOrder sessionId).filter fun row => low ≤ row.sequence ∧ row.sequence ≤ high := by
  rw [inOrder, ← mergeSort_key_filter MessageRecord.sequence _ (nodup_sequences h sessionId),
    List.filter_filter, window]
  congr 1
  refine List.filter_congr fun row _ => ?_
  rw [← Bool.decide_and]
  exact decide_eq_decide.mpr and_comm

/-- **A message is between those before it and those after it.** -/
theorem inOrder_eq (hneedle : needle ∈ store.messages) :
    store.inOrder needle.sessionId = store.earlier needle ++ needle :: store.later needle := by
  obtain ⟨front, back, hsplit⟩ := List.append_of_mem (mem_inOrder.mpr ⟨hneedle, rfl⟩)
  have hpair := pairwise_inOrder h needle.sessionId
  rw [hsplit, List.pairwise_append, List.pairwise_cons] at hpair
  obtain ⟨-, ⟨hback, -⟩, hfront⟩ := hpair
  have hbefore : ∀ row ∈ front, row.sequence < needle.sequence :=
    fun row hrow => hfront row hrow needle List.mem_cons_self
  rw [earlier, later, hsplit]
  simp only [List.filter_append, List.filter_cons, lt_irrefl, decide_false, Bool.false_eq_true,
    if_false]
  rw [List.filter_eq_self.mpr fun row hrow => decide_eq_true (hbefore row hrow),
    List.filter_eq_self.mpr fun row hrow => decide_eq_true (hback row hrow),
    List.filter_eq_nil_iff.mpr fun row hrow =>
      by simpa using (hback row hrow).le,
    List.filter_eq_nil_iff.mpr fun row hrow =>
      by simpa using (hbefore row hrow).le, List.append_nil, List.nil_append]

/-- **What is near a message** is what is near before it, itself and what is near after it. -/
theorem window_near (hneedle : needle ∈ store.messages) (before after : ℕ) :
    store.window needle.sessionId (needle.sequence - before) (needle.sequence + after) =
      (store.earlier needle).filter (fun row => needle.sequence ≤ row.sequence + before) ++
        needle :: (store.later needle).filter
          fun row => row.sequence ≤ needle.sequence + after := by
  rw [window_eq h, inOrder_eq h hneedle, List.filter_append, List.filter_cons_of_pos]
  · congr 1
    · refine List.filter_congr fun row hrow => decide_eq_decide.mpr ?_
      have hlt := of_decide_eq_true (List.mem_filter.mp hrow).2
      omega
    · congr 1
      refine List.filter_congr fun row hrow => decide_eq_decide.mpr ?_
      have hlt := of_decide_eq_true (List.mem_filter.mp hrow).2
      omega
  · rw [decide_eq_true_eq]
    omega

end Unique

/-! ### What a recall returns -/

/-- The message, with the nearest messages that are asked for, as many as there are. -/
def nearest (store : Conversations) (needle : MessageRecord) (before after : ℕ) :
    List MessageRecord :=
  (store.earlier needle).rtake before ++ needle :: (store.later needle).take after

/-- Whether the nearest messages that are asked for have near sequences. -/
def NoGap (store : Conversations) (needle : MessageRecord) (before after : ℕ) : Prop :=
  (∀ row ∈ (store.earlier needle).rtake before, needle.sequence ≤ row.sequence + before) ∧
    ∀ row ∈ (store.later needle).take after, row.sequence ≤ needle.sequence + after

/-- What is told about the messages of the session that are not returned. -/
structure TellsOthers (store : Conversations) (needle : MessageRecord) (window : RecallWindow) :
    Prop where
  hasBefore : window.hasBefore = true ↔ ∃ row ∈ store.earlier needle, row ∉ window.messages
  hasAfter : window.hasAfter = true ↔ ∃ row ∈ store.later needle, row ∉ window.messages

end Conversations

open Conversations

/-- A window around a message. -/
structure Recalls (store : Conversations) (needle : MessageRecord) (before after : ℕ)
    (window : RecallWindow) : Prop where
  needleMessageId : window.needleMessageId = needle.messageId
  sessionId : window.sessionId = needle.sessionId
  /-- The messages whose sequences are near. -/
  messages : window.messages =
    (store.earlier needle).filter (fun row => needle.sequence ≤ row.sequence + before) ++
      needle :: (store.later needle).filter fun row => row.sequence ≤ needle.sequence + after
  /-- Those before the message are the last of the nearest that were asked for. -/
  earlier : (store.earlier needle).filter
    (fun row => needle.sequence ≤ row.sequence + before) <:+ (store.earlier needle).rtake before
  /-- Those after the message are the first of the nearest that were asked for. -/
  later : (store.later needle).filter
    (fun row => row.sequence ≤ needle.sequence + after) <+: (store.later needle).take after
  /-- All of the nearest are returned exactly when no gap is in the way. -/
  nearest_iff : window.messages = store.nearest needle before after ↔
    store.NoGap needle before after
  tellsOthers : store.TellsOthers needle window

namespace Conversations

variable {store : Conversations} {needle row : MessageRecord} {before after : ℕ}

theorem mem_earlier : row ∈ store.earlier needle ↔
    (row ∈ store.messages ∧ row.sessionId = needle.sessionId) ∧ row.sequence < needle.sequence := by
  rw [earlier, List.mem_filter, mem_inOrder, decide_eq_true_eq]

theorem mem_later : row ∈ store.later needle ↔
    (row ∈ store.messages ∧ row.sessionId = needle.sessionId) ∧ needle.sequence < row.sequence := by
  rw [later, List.mem_filter, mem_inOrder, decide_eq_true_eq]

/-- A message that is found is returned with those that are near. -/
theorem recallAround_eq (hneedle : needle ∈ store.messages) (hbefore : before ≤ 50)
    (hafter : after ≤ 50) :
    store.recallAround needle.messageId before after = .ok {
      needleMessageId := needle.messageId
      sessionId := needle.sessionId
      messages := store.window needle.sessionId (needle.sequence - before)
        (needle.sequence + after)
      hasBefore := store.messages.values.any fun row =>
        row.sessionId = needle.sessionId ∧ (row.sequence : ℤ) < needle.sequence - before
      hasAfter := store.messages.values.any fun row =>
        row.sessionId = needle.sessionId ∧ (needle.sequence + after : ℤ) < row.sequence } := by
  rw [recallAround, if_neg (by omega), Keyed.find?_key hneedle]

section Unique

variable (h : store.SequencesUnique)

include h

theorem pairwise_earlier (needle : MessageRecord) :
    (store.earlier needle).Pairwise fun a b => a.sequence < b.sequence :=
  (pairwise_inOrder h needle.sessionId).filter _

theorem pairwise_later (needle : MessageRecord) :
    (store.later needle).Pairwise fun a b => a.sequence < b.sequence :=
  (pairwise_inOrder h needle.sessionId).filter _

/-- All of the nearest messages are near exactly when there is no gap. -/
theorem near_eq_nearest_iff (needle : MessageRecord) (before after : ℕ) :
    (store.earlier needle).filter (fun row => needle.sequence ≤ row.sequence + before) ++
        needle :: (store.later needle).filter
          (fun row => row.sequence ≤ needle.sequence + after) =
        store.nearest needle before after ↔ store.NoGap needle before after := by
  have hbelow : ∀ row ∈ store.earlier needle, row.sequence < needle.sequence :=
    fun row hrow => (mem_earlier.mp hrow).2
  have habove : ∀ row ∈ store.later needle, needle.sequence < row.sequence :=
    fun row hrow => (mem_later.mp hrow).2
  rw [NoGap, ← within_eq_rtake_iff before (pairwise_earlier h needle) hbelow,
    ← within_eq_take_iff after (pairwise_later h needle) habove, nearest]
  have hsuffix := within_isSuffix before (pairwise_earlier h needle) hbelow
  have hstarts := within_isPrefix after (pairwise_later h needle) habove
  constructor
  · intro heq
    -- neither part is longer than what it is compared with
    have hlength := congrArg List.length heq
    have hle := hsuffix.length_le
    have hle' := hstarts.length_le
    simp only [List.length_append, List.length_cons] at hlength
    exact ⟨hsuffix.eq_of_length (by omega), hstarts.eq_of_length (by omega)⟩
  · rintro ⟨hfront, hback⟩
    rw [hfront, hback]

/-- A message of the session is not near exactly when it is not returned. -/
theorem not_mem_near_iff (hrow : row ∈ store.messages)
    (hsession : row.sessionId = needle.sessionId) (before after : ℕ) :
    row ∉ store.window needle.sessionId (needle.sequence - before) (needle.sequence + after) ↔
      (row.sequence : ℤ) < needle.sequence - before ∨
        (needle.sequence : ℤ) + after < row.sequence := by
  rw [window_eq h, List.mem_filter, mem_inOrder, decide_eq_true_eq]
  constructor
  · intro hout
    by_contra hnear
    exact hout ⟨⟨hrow, hsession⟩, by omega, by omega⟩
  · rintro hfar ⟨-, hnear⟩
    omega

/-- **Whether there are other messages is told right.** -/
theorem tellsOthers_recallAround (needle : MessageRecord) (before after : ℕ) :
    store.TellsOthers needle {
      needleMessageId := needle.messageId
      sessionId := needle.sessionId
      messages := store.window needle.sessionId (needle.sequence - before)
        (needle.sequence + after)
      hasBefore := store.messages.values.any fun row =>
        row.sessionId = needle.sessionId ∧ (row.sequence : ℤ) < needle.sequence - before
      hasAfter := store.messages.values.any fun row =>
        row.sessionId = needle.sessionId ∧ (needle.sequence + after : ℤ) < row.sequence } where
  hasBefore := by
    rw [List.any_eq_true]
    constructor
    · rintro ⟨row, hrow, hlow⟩
      obtain ⟨hsession, hlow⟩ := of_decide_eq_true hlow
      exact ⟨row, mem_earlier.mpr ⟨⟨hrow, hsession⟩, by omega⟩,
        (not_mem_near_iff h hrow hsession before after).mpr (.inl hlow)⟩
    -- what is outside the window and earlier is below its first sequence number
    · rintro ⟨row, hmem, hout⟩
      obtain ⟨⟨hrow, hsession⟩, hlt⟩ := mem_earlier.mp hmem
      have hfar := (not_mem_near_iff h hrow hsession before after).mp hout
      exact ⟨row, hrow, decide_eq_true ⟨hsession, by omega⟩⟩
  hasAfter := by
    rw [List.any_eq_true]
    constructor
    · rintro ⟨row, hrow, hhigh⟩
      obtain ⟨hsession, hhigh⟩ := of_decide_eq_true hhigh
      exact ⟨row, mem_later.mpr ⟨⟨hrow, hsession⟩, by omega⟩,
        (not_mem_near_iff h hrow hsession before after).mpr (.inr hhigh)⟩
    -- what is outside the window and later is above its last one
    · rintro ⟨row, hmem, hout⟩
      obtain ⟨⟨hrow, hsession⟩, hlt⟩ := mem_later.mp hmem
      have hfar := (not_mem_near_iff h hrow hsession before after).mp hout
      exact ⟨row, hrow, decide_eq_true ⟨hsession, by omega⟩⟩

theorem recalls_of_le (hneedle : needle ∈ store.messages) (hbefore : before ≤ 50)
    (hafter : after ≤ 50) :
    ∃ window, store.recallAround needle.messageId before after = .ok window ∧
      Recalls store needle before after window :=
  ⟨_, recallAround_eq hneedle hbefore hafter, {
    needleMessageId := rfl
    sessionId := rfl
    messages := window_near h hneedle before after
    earlier :=
      within_isSuffix before (pairwise_earlier h needle) fun row hrow => (mem_earlier.mp hrow).2
    later := within_isPrefix after (pairwise_later h needle) fun row hrow => (mem_later.mp hrow).2
    nearest_iff := by
      dsimp only
      rw [window_near h hneedle]
      exact near_eq_nearest_iff h needle before after
    tellsOthers := tellsOthers_recallAround h needle before after }⟩

end Unique

/-- **What a recall returns**, when the sequences of a session are distinct. More than fifty
messages on a side are not asked for. -/
theorem recallAround_recalls (h : store.SequencesUnique) (hneedle : needle ∈ store.messages)
    (before after : ℕ) :
    (before ≤ 50 → after ≤ 50 →
      ∃ window, store.recallAround needle.messageId before after = .ok window ∧
        Recalls store needle before after window) ∧
    (50 < before ∨ 50 < after → store.recallAround needle.messageId before after =
      .error (.value "before and after must be between 0 and 50")) := by
  constructor
  · exact recalls_of_le h hneedle
  · intro hmany
    rw [recallAround, if_pos (by omega)]

/-- A remark of a viewer. -/
def remark (messageId : Text) (sequence : ℕ) (hpos : 1 ≤ sequence) : MessageRecord where
  messageId := messageId
  sessionId := "session".toList
  sequence := sequence
  role := .user
  content := "tea".toList
  createdAt := Datetime.morning
  sequence_pos := hpos

theorem fourth_pos : 1 ≤ 4 := by decide

/-- A session of which the second message was never written. -/
def gapped : Conversations where
  sessions := ["session".toList]
  messages := {
    values := [remark "m1".toList 1 Nat.zero_lt_one, remark "m3".toList 3 (by decide),
      remark "m4".toList 4 fourth_pos]
    nodup := by decide }

theorem sequencesUnique_gapped : gapped.SequencesUnique := by
  show ∀ a ∈ gapped.messages.values, ∀ b ∈ gapped.messages.values, _
  decide

theorem recallAround_recalls_gapped :
    ∃ window, gapped.recallAround "m3".toList 1 1 = .ok window ∧
      Recalls gapped (remark "m3".toList 3 (by decide)) 1 1 window := by
  have hneedle : remark "m3".toList 3 (by decide) ∈ gapped.messages := by
    rw [← Keyed.mem_values]
    decide
  exact (recallAround_recalls sequencesUnique_gapped hneedle 1 1).1 (by decide) (by decide)

end Conversations

end Eeveetuber.Storage
