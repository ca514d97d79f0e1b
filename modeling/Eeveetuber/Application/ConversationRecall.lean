import Eeveetuber.Application.ConversationReads
import Eeveetuber.Storage.RecallWindow

/-!
# Recalling the messages of a session

The turns of a session write messages whose sequences are distinct
(`Eeveetuber.ConversationStorage.sequencesUnique_of_leads`), so that a recall returns what
`Eeveetuber.Storage.Recalls` says, in any state of a session. But they leave gaps: each turn
reserves a sequence for its reply, and a turn that is overtaken never writes one. **After such a
turn a message may be asked for that is there and is not returned**
(`Eeveetuber.ConversationStorage.recall_overtaken`).
-/

namespace Eeveetuber

namespace ConversationStorage

open Foundation Storage Conversations

variable {policy : RecentConversationHistoryPolicy} {sessionId : Text}
  {s t : ConversationStorage}

/-- A step writes one message, or none. -/
theorem Steps.store_eq (h : Steps policy sessionId s t) :
    t.store = s.store ∨ ∃ record, s.store.append record = .ok t.store := by
  cases h with
  | commit i write _ _ store happend => exact .inr ⟨write.record, happend⟩
  | _ => exact .inl rfl

/-- **The sequences of a session stay distinct.** -/
theorem sequencesUnique_of_leads (h : (machine policy sessionId).Leads s t)
    (hs : s.store.SequencesUnique) : t.store.SequencesUnique := by
  refine h.invariant (I := fun s => s.store.SequencesUnique) hs fun s l t hs hstep => ?_
  obtain hsame | ⟨record, happend⟩ := (next_steps hstep).store_eq
  · rw [hsame]
    exact hs
  · exact Conversations.sequencesUnique_append hs happend

/-- What a recall returns at any time of a session. -/
theorem recalls_of_leads (h : (machine policy sessionId).Leads s t)
    (hs : s.store.SequencesUnique) {needle : MessageRecord} (hneedle : needle ∈ t.store.messages)
    {before after : ℕ} (hbefore : before ≤ 50) (hafter : after ≤ 50) :
    ∃ window, t.store.recallAround needle.messageId before after = .ok window ∧
      Recalls t.store needle before after window :=
  Conversations.recalls_of_le (sequencesUnique_of_leads h hs) hneedle hbefore hafter

/-- A turn is overtaken before it is answered, and the messages of both turns are written. -/
def overtakenTurn : List Label :=
  [.advance, .enqueue (ask 1), .accept "m1".toList, .spawn 1, .advance, .enqueue (ask 2),
    .accept "m3".toList, .commit 0, .commit 1]

/-- The session after the two turns. -/
def overtaken : ConversationStorage := after overtakenTurn

theorem leads_overtaken : (machine {} "session".toList).Leads opened overtaken := by
  have hsome : ((machine {} "session".toList).run opened overtakenTurn).isSome = true := by decide
  obtain ⟨s, hs⟩ := Option.isSome_iff_exists.mp hsome
  rw [overtaken, after, hs]
  exact Machine.leads_of_run hs

/-- The message of the first turn. -/
def firstMessage : MessageRecord :=
  userRecord "session".toList "m1".toList (ask 1) 1 Nat.zero_lt_one

theorem thirdMessage_pos : 1 ≤ 3 := by decide

/-- The message of the second turn. -/
def secondMessage : MessageRecord :=
  userRecord "session".toList "m3".toList (ask 2) 3 thirdMessage_pos

theorem firstMessage_mem_earlier : firstMessage ∈ overtaken.store.earlier secondMessage := by
  refine mem_earlier.mpr ⟨⟨?_, rfl⟩, by decide⟩
  rw [← Keyed.mem_values]
  decide +kernel

/-- **The message before the second one is not returned**, though it is asked for: its sequence
is two less. -/
theorem recall_overtaken :
    (machine {} "session".toList).Reachable overtaken ∧ overtaken.store.SequencesUnique ∧
      secondMessage ∈ overtaken.store.messages ∧
      (overtaken.store.recallAround secondMessage.messageId 1 0).map RecallWindow.messages =
        .ok [secondMessage] ∧
      firstMessage ∈ overtaken.store.earlier secondMessage ∧
      overtaken.store.nearest secondMessage 1 0 ≠ [secondMessage] := by
  have hstart : (machine {} "session".toList).start opened := ⟨rfl, rfl, rfl, rfl, rfl, rfl, rfl⟩
  have hempty : opened.store.SequencesUnique := fun a ha => absurd ha List.not_mem_nil
  refine ⟨leads_overtaken.reachable (.start hstart),
    sequencesUnique_of_leads leads_overtaken hempty, ?_, ?_, firstMessage_mem_earlier, ?_⟩
  · rw [← Keyed.mem_values]
    decide +kernel
  · decide +kernel
  · -- one message was asked for, and there is one
    intro heq
    have hpos := List.length_pos_of_mem firstMessage_mem_earlier
    have hlength := congrArg List.length heq
    rw [nearest, List.length_append, List.rtake, List.length_drop, List.length_cons,
      List.length_singleton] at hlength
    omega

end ConversationStorage

end Eeveetuber
