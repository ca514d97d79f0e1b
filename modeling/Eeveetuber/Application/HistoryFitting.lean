import Eeveetuber.Application.ConversationHistory

/-!
# How messages are fitted into a history

A message that does not fit into what remains of a history is cut down to the longest beginning
that fits, found by halving. Whether it fits is asked of the message as it is, and of a
beginning as one that is marked as truncated; the two marks are not of one length.

* `Eeveetuber.RecentConversationHistoryPolicy.history_fitting_exact`: **what is found is the
  longest beginning that fits**, except that a beginning of one character is not always asked
  about, and a message that is one character too long is marked though nothing of it is cut;
* `Eeveetuber.RecentConversationHistoryPolicy.compile_greedy`: **a message is left out only
  if nothing of two characters or more of it fits**, and nothing that was cut down is followed
  by an older message.
-/

namespace Eeveetuber

open Foundation Storage

namespace RecentConversationHistoryPolicy

variable {policy : RecentConversationHistoryPolicy} {message fitted : RecentHistoryMessage}
  {newer messages : List RecentHistoryMessage} {k : ℕ}

/-! ### What fits -/

/-- So many characters of a message fit, with the newer messages. -/
def Fits (policy : RecentConversationHistoryPolicy) (message : RecentHistoryMessage)
    (newer : List RecentHistoryMessage) (k : ℕ) : Prop :=
  0 < k ∧ k ≤ message.content.length ∧
    (renderHistory (cut message k :: newer)).length ≤ policy.maxChars

/-- **A message is fitted in exactly**: as its longest beginning that fits, or, if not one
character fits, not at all. -/
def FitsExactly (policy : RecentConversationHistoryPolicy) (message : RecentHistoryMessage)
    (newer : List RecentHistoryMessage) : Prop :=
  match policy.fitMessage message newer with
  | some fitted => (fitted = message ∨ fitted = cut message fitted.content.length) ∧
      (renderHistory (fitted :: newer)).length ≤ policy.maxChars ∧
      ∀ k, Fits policy message newer k → k ≤ fitted.content.length
  | none => ∀ k, ¬Fits policy message newer k

/-- A message of which one character fits and no more, and whose length is not halved to one. -/
def OneMissed (policy : RecentConversationHistoryPolicy) (message : RecentHistoryMessage)
    (newer : List RecentHistoryMessage) : Prop :=
  policy.maxChars < (renderHistory (message :: newer)).length ∧ Fits policy message newer 1 ∧
    ¬Fits policy message newer 2 ∧ halvesToOne message.content.length = false

theorem fitsExactly_of_some (h : policy.fitMessage message newer = some fitted) :
    FitsExactly policy message newer ↔
      (fitted = message ∨ fitted = cut message fitted.content.length) ∧
        (renderHistory (fitted :: newer)).length ≤ policy.maxChars ∧
        ∀ k, Fits policy message newer k → k ≤ fitted.content.length := by
  rw [FitsExactly, h]

theorem fitsExactly_of_none (h : policy.fitMessage message newer = none) :
    FitsExactly policy message newer ↔ ∀ k, ¬Fits policy message newer k := by
  rw [FitsExactly, h]

theorem length_cut (h : k ≤ message.content.length) :
    (cut message k).content.length = k := by
  rw [cut, List.length_take]
  omega

theorem Fits.mono {j : ℕ} (h : Fits policy message newer k) (hpos : 0 < j) (hle : j ≤ k) :
    Fits policy message newer j :=
  ⟨hpos, hle.trans h.2.1, (length_renderHistory_le
    (length_renderMessage_cut_le (Int.ofNat_le.mpr hle))).trans h.2.2⟩

/-- What the bisection asks about. -/
theorem cutFits_iff (hle : k ≤ message.content.length) :
    policy.cutFits message newer k = true ↔ Fits policy message newer k := by
  rw [cutFits, decide_eq_true_eq, Fits]
  constructor
  · rintro ⟨hpos, hfits⟩
    exact ⟨by omega, hle, hfits⟩
  · rintro ⟨hpos, -, hfits⟩
    exact ⟨by omega, hfits⟩

theorem fitMessage_of_fits (h : (renderHistory (message :: newer)).length ≤ policy.maxChars) :
    policy.fitMessage message newer = some message := if_pos h

theorem fitMessage_of_not_fits
    (h : ¬(renderHistory (message :: newer)).length ≤ policy.maxChars) :
    policy.fitMessage message newer =
      (bisect (policy.cutFits message newer) 0 message.content.length none).map (cut message) :=
  if_neg h

/-- **What is fitted in of a message that does not fit**: so many characters of it, which fit. -/
theorem fitMessage_eq_some_of_not_fits
    (hnot : ¬(renderHistory (message :: newer)).length ≤ policy.maxChars)
    (h : policy.fitMessage message newer = some fitted) :
    ∃ k : ℕ, fitted = cut message k ∧ fitted.content.length = k ∧ Fits policy message newer k := by
  rw [fitMessage_of_not_fits hnot] at h
  obtain ⟨m, hfound, rfl⟩ := Option.map_eq_some_iff.mp h
  obtain ⟨haccepts, hlow, hhigh⟩ := bisect_accepts hfound
  obtain ⟨k, rfl⟩ := Int.eq_ofNat_of_zero_le hlow
  have hle : k ≤ message.content.length := Int.ofNat_le.mp hhigh
  exact ⟨k, rfl, length_cut hle, (cutFits_iff hle).mp haccepts⟩

/-- When a message is fitted in of which one character fits and no more. -/
theorem isSome_fitMessage_of_only_one
    (hnot : ¬(renderHistory (message :: newer)).length ≤ policy.maxChars)
    (hone : Fits policy message newer 1) (htwo : ¬Fits policy message newer 2) :
    (policy.fitMessage message newer).isSome = halvesToOne message.content.length := by
  rw [fitMessage_of_not_fits hnot, Option.isSome_map]
  refine isSome_bisect_of_only_one ?_ ?_ _ ?_
  · rfl
  · exact (cutFits_iff (k := 1) hone.2.1).mpr hone
  · intro i hi hle
    obtain ⟨k, rfl⟩ := Int.eq_ofNat_of_zero_le (by omega : 0 ≤ i)
    rw [← Bool.not_eq_true, cutFits_iff (Int.ofNat_le.mp hle)]
    exact fun hfits => htwo (hfits.mono (by decide) (by omega))

/-- **When a message is fitted in exactly**: unless one character of it is missed. -/
theorem fitsExactly_iff : FitsExactly policy message newer ↔ ¬OneMissed policy message newer := by
  by_cases hwhole : (renderHistory (message :: newer)).length ≤ policy.maxChars
  · rw [fitsExactly_of_some (fitMessage_of_fits hwhole)]
    exact iff_of_true ⟨.inl rfl, hwhole, fun k hk => hk.2.1⟩ fun h => absurd hwhole h.1.not_ge
  · -- of two characters or more the longest beginning is found
    have hlongest : ∀ k, 2 ≤ k → Fits policy message newer k →
        ∃ fitted, policy.fitMessage message newer = some fitted ∧ k ≤ fitted.content.length :=
      fun k htwo hk => le_length_fitMessage htwo hk.2.1 hk.2.2
    rcases hfit : policy.fitMessage message newer with _ | fitted
    · rw [fitsExactly_of_none hfit]
      constructor
      · exact fun hnone hmissed => hnone 1 hmissed.2.1
      · intro hnot k hk
        have hone : Fits policy message newer 1 := hk.mono (by decide) hk.1
        have htwo : ¬Fits policy message newer 2 := fun htwo => by
          obtain ⟨fitted, hsome, -⟩ := hlongest 2 le_rfl htwo
          exact nomatch hfit.symm.trans hsome
        refine hnot ⟨not_le.mp hwhole, hone, htwo, ?_⟩
        rw [← isSome_fitMessage_of_only_one hwhole hone htwo, hfit]
        rfl
    · obtain ⟨j, hcut, hlength, hj⟩ := fitMessage_eq_some_of_not_fits hwhole hfit
      rw [fitsExactly_of_some hfit]
      refine iff_of_true ⟨.inr (hlength.symm ▸ hcut), hcut ▸ hj.2.2, fun k hk => ?_⟩
        fun hmissed => ?_
      · obtain hsmall | hlarge := Nat.lt_or_ge k 2
        · have hpos := hj.1
          omega
        · obtain ⟨fitted', hsome, hle⟩ := hlongest k hlarge hk
          obtain rfl := Option.some.inj (hfit.symm.trans hsome)
          exact hle
      · have hnone := isSome_fitMessage_of_only_one hwhole hmissed.2.1 hmissed.2.2.1
        rw [hfit, hmissed.2.2.2] at hnone
        exact nomatch hnone

/-! ### The mark of a message -/

/-- A message is marked when it is shorter than the one it is of, or that one is marked. -/
def RightlyMarked (fitted message : RecentHistoryMessage) : Prop :=
  fitted.truncated = true ↔
    fitted.content.length < message.content.length ∨ message.truncated = true

/-- A message that is not marked, and is one character too long. -/
def OneOver (policy : RecentConversationHistoryPolicy) (message : RecentHistoryMessage)
    (newer : List RecentHistoryMessage) : Prop :=
  message.truncated = false ∧ 2 ≤ message.content.length ∧
    (renderHistory (message :: newer)).length = policy.maxChars + 1

/-- The whole of a message, with the mark. -/
theorem cut_length_eq :
    cut message message.content.length = { message with truncated := true } := by
  rw [cut, Int.toNat_natCast, List.take_length]

/-- The mark is a character shorter than no mark. -/
theorem length_renderHistory_marked (newer : List RecentHistoryMessage)
    (h : message.truncated = false) :
    (renderHistory (cut message message.content.length :: newer)).length + 1 =
      (renderHistory (message :: newer)).length := by
  have htrue : (jsonBool true).length + 1 = (jsonBool false).length := rfl
  rw [cut_length_eq]
  simp only [renderHistory, List.map_cons, jsonArray, jsonJoin_cons, List.intercalate_cons_cons,
    List.intercalate_singleton, List.length_append, renderMessage, jsonObject, List.flatMap_cons, h]
  omega

theorem not_marked_of_not_fits
    (hnot : ¬(renderHistory (message :: newer)).length ≤ policy.maxChars)
    (hwhole : Fits policy message newer message.content.length) : message.truncated = false := by
  by_contra hmarked
  rw [Bool.not_eq_false] at hmarked
  have hsame : cut message message.content.length = message := by
    rw [cut_length_eq]
    exact congrArg (fun truncated => { message with truncated := truncated }) hmarked.symm
  exact hnot (hsame ▸ hwhole.2.2)

/-- **When a message is marked rightly**: unless it is one character too long. -/
theorem rightlyMarked_iff (h : policy.fitMessage message newer = some fitted) :
    RightlyMarked fitted message ↔ ¬OneOver policy message newer := by
  by_cases hwhole : (renderHistory (message :: newer)).length ≤ policy.maxChars
  · obtain rfl := Option.some.inj ((fitMessage_of_fits hwhole).symm.trans h)
    refine iff_of_true ?_ fun hover => ?_
    · rw [RightlyMarked, or_iff_right (lt_irrefl _)]
    · have hlength := hover.2.2
      omega
  · obtain ⟨k, rfl, hlength, hk⟩ := fitMessage_eq_some_of_not_fits hwhole h
    have hmarked : (cut message k).truncated = true := rfl
    rw [RightlyMarked, hlength, iff_true_left hmarked]
    by_cases hall : k = message.content.length
    · -- all of the message fits with the mark, and it does not without
      rw [hall] at hk h
      have hunmarked := not_marked_of_not_fits hwhole hk
      have hover := length_renderHistory_marked newer hunmarked
      have hfits := hk.2.2
      refine iff_of_false (by simp [hall, hunmarked]) (not_not.mpr ⟨hunmarked, ?_, by omega⟩)
      by_contra hone
      have hlen : message.content.length = 1 := by
        have hpos := hk.1
        omega
      have hmissed := isSome_fitMessage_of_only_one hwhole (hlen ▸ hk) fun htwo => by
        have hle := htwo.2.1
        omega
      rw [h, hlen, halvesToOne, if_pos (by decide)] at hmissed
      cases hmissed
    · refine iff_of_true (.inl (lt_of_le_of_ne hk.2.1 hall)) fun hover => ?_
      obtain ⟨hunmarked, htwo, hlen⟩ := hover
      have hmarkedLength := length_renderHistory_marked newer hunmarked
      have hfits : (renderHistory (cut message message.content.length :: newer)).length ≤
          policy.maxChars := by omega
      obtain ⟨fitted, hsome, hle⟩ := le_length_fitMessage htwo le_rfl hfits
      obtain rfl := Option.some.inj (h.symm.trans hsome)
      rw [hlength] at hle
      exact hall (le_antisymm hk.2.1 hle)

/-! ### The marks of a history -/

/-- The messages that are gone through: the newest of the eligible ones. -/
def window (policy : RecentConversationHistoryPolicy) (records : List MessageRecord)
    (sessionId : Text) (beforeGeneration : ℤ) : List RecentHistoryMessage :=
  let messages := policy.eligible records sessionId beforeGeneration
  messages.drop (messages.length - policy.maxMessages)

/-- What is selected of some messages. -/
def selected (policy : RecentConversationHistoryPolicy) (messages : List RecentHistoryMessage) :
    List RecentHistoryMessage :=
  messages.foldr policy.selectMessage []

/-- No message is one character too long when it is gone through. -/
def NoneOver (policy : RecentConversationHistoryPolicy) (messages : List RecentHistoryMessage) :
    Prop :=
  ∀ older message newer, messages = older ++ message :: newer →
    ¬OneOver policy message (policy.selected newer)

theorem noneOver_cons : NoneOver policy (message :: messages) ↔
    ¬OneOver policy message (policy.selected messages) ∧ NoneOver policy messages := by
  constructor
  · intro h
    refine ⟨h [] message messages rfl, fun older message' newer heq => ?_⟩
    exact h (message :: older) message' newer (by rw [heq, List.cons_append])
  · rintro ⟨hfirst, hrest⟩ (_ | ⟨first, older⟩) message' newer heq
    · obtain ⟨rfl, rfl⟩ := List.cons.inj heq
      exact hfirst
    · exact hrest older message' newer (List.cons.inj heq).2

theorem selected_cons : policy.selected (message :: messages) =
    (policy.fitMessage message (policy.selected messages)).toList ++ policy.selected messages := rfl

/-- **When all that is selected is marked rightly.** -/
theorem selected_marked_iff (hkeys : messages.Pairwise fun a b => a.key < b.key) :
    (∀ fitted ∈ policy.selected messages, ∃ message ∈ messages, Shortens fitted message ∧
      RightlyMarked fitted message) ↔ NoneOver policy messages := by
  induction messages with
  | nil =>
    refine iff_of_true (fun fitted h => absurd h List.not_mem_nil) fun older message newer h => ?_
    exact absurd h.symm (List.append_ne_nil_of_right_ne_nil _ (List.cons_ne_nil _ _))
  | cons first messages ih =>
    obtain ⟨hfirst, hrest⟩ := List.pairwise_cons.mp hkeys
    rw [noneOver_cons, ← ih hrest, selected_cons]
    constructor
    · intro h
      constructor
      · intro hover
        -- the message that is one too long is in, and marked
        rcases hfit : policy.fitMessage first (policy.selected messages) with _ | fitted
        · have hfits : (renderHistory (cut first first.content.length ::
              policy.selected messages)).length ≤ policy.maxChars := by
            have hlength := length_renderHistory_marked (policy.selected messages) hover.1
            have hlen := hover.2.2
            omega
          obtain ⟨fitted, hsome, -⟩ := le_length_fitMessage hover.2.1 le_rfl hfits
          exact nomatch hfit.symm.trans hsome
        · obtain ⟨message, hmessage, hshortens, hmarked⟩ := h fitted
            (List.mem_append_left _ (hfit ▸ List.mem_singleton_self fitted))
          obtain rfl | hmessage := List.mem_cons.mp hmessage
          · exact (rightlyMarked_iff hfit).mp hmarked hover
          · have hlt := hfirst message hmessage
            rw [← (fitMessage_eq_some hfit).1.key, hshortens.key] at hlt
            exact absurd hlt (lt_irrefl _)
      · intro fitted hfitted
        obtain ⟨message, hmessage, hshortens, hmarked⟩ := h fitted
          (List.mem_append_right _ hfitted)
        obtain rfl | hmessage := List.mem_cons.mp hmessage
        · obtain ⟨message', hmessage', hshortens'⟩ :=
            (selected_foldr policy messages).shortens fitted hfitted
          have hlt := hfirst message' hmessage'
          rw [← hshortens'.key, hshortens.key] at hlt
          exact absurd hlt (lt_irrefl _)
        · exact ⟨message, hmessage, hshortens, hmarked⟩
    · rintro ⟨hover, h⟩ fitted hfitted
      rcases List.mem_append.mp hfitted with hfitted | hfitted
      · rw [Option.mem_toList] at hfitted
        exact ⟨first, List.mem_cons_self, (fitMessage_eq_some hfitted).1,
          (rightlyMarked_iff hfitted).mpr hover⟩
      · obtain ⟨message, hmessage, hmarked⟩ := h fitted hfitted
        exact ⟨message, List.mem_cons_of_mem _ hmessage, hmarked⟩

/-- A message of a history is marked when it is shorter than the content of its record. -/
def RightlyTruncated (policy : RecentConversationHistoryPolicy) (records : List MessageRecord)
    (sessionId : Text) (beforeGeneration : ℤ) (fitted : RecentHistoryMessage) : Prop :=
  ∃ message ∈ policy.window records sessionId beforeGeneration, ∃ record ∈ records,
    policy.eligibleMessage beforeGeneration record = some message ∧ Shortens fitted message ∧
      (fitted.truncated = true ↔ fitted.content.length < (strip record.content).length)

/-- What is eligible of a record is marked rightly. -/
theorem eligibleMessage_marked {beforeGeneration : ℤ} {record : MessageRecord}
    (h : policy.eligibleMessage beforeGeneration record = some message) :
    message.content.length ≤ (strip record.content).length ∧
      (message.truncated = true ↔ message.content.length < (strip record.content).length) := by
  rw [eligibleMessage] at h
  split at h
  · split at h
    · obtain ⟨-, h⟩ := (Option.ite_none_left_eq_some).mp h
      obtain ⟨-, h⟩ := (Option.ite_none_left_eq_some).mp h
      obtain rfl := Option.some.inj h
      exact ⟨List.length_take_le' _ _, decide_eq_true_iff⟩
    · cases h
  · cases h

theorem rightlyMarked_iff_record {beforeGeneration : ℤ} {record : MessageRecord}
    (h : policy.eligibleMessage beforeGeneration record = some message)
    (hshortens : Shortens fitted message) : RightlyMarked fitted message ↔
      (fitted.truncated = true ↔ fitted.content.length < (strip record.content).length) := by
  obtain ⟨hle, hmarked⟩ := eligibleMessage_marked h
  have hbegin := hshortens.content_isPrefix.length_le
  rw [RightlyMarked, hmarked]
  refine iff_congr Iff.rfl ?_
  omega

section Compile

variable (policy) (records : List MessageRecord) (sessionId : Text) (beforeGeneration : ℤ)

theorem compile_messages_of_enabled (h : policy.enabled = true) :
    (policy.compile records sessionId beforeGeneration).messages =
      policy.selected (policy.window records sessionId beforeGeneration) := by
  rw [compile, if_neg (by simp [h])]
  dsimp only
  split_ifs with hnone
  · exact hnone.symm
  · rfl

theorem compile_messages_of_disabled (h : policy.enabled = false) :
    (policy.compile records sessionId beforeGeneration).messages = [] := by
  rw [compile, if_pos h]

theorem window_pairwise :
    (policy.window records sessionId beforeGeneration).Pairwise fun a b => a.key < b.key :=
  eligible_pairwise.sublist (List.drop_sublist _ _)

theorem exists_record_of_mem_window {message : RecentHistoryMessage}
    (h : message ∈ policy.window records sessionId beforeGeneration) :
    ∃ record ∈ records, policy.eligibleMessage beforeGeneration record = some message := by
  obtain ⟨kept, hkept, -, -, heq⟩ := eligible_eq policy records sessionId beforeGeneration
  have hmem := List.mem_of_mem_drop h
  rw [heq] at hmem
  obtain ⟨record, hrecord, hmessage⟩ := List.mem_filterMap.mp hmem
  exact ⟨record, (hkept record hrecord).1, hmessage⟩

/-- **When the messages of a history are marked rightly.** -/
theorem compile_marked_iff :
    (∀ fitted ∈ (policy.compile records sessionId beforeGeneration).messages,
      RightlyTruncated policy records sessionId beforeGeneration fitted) ↔
    (policy.enabled = true →
      NoneOver policy (policy.window records sessionId beforeGeneration)) := by
  rcases henabled : policy.enabled
  · rw [compile_messages_of_disabled policy records sessionId beforeGeneration henabled]
    exact iff_of_true (fun fitted h => absurd h List.not_mem_nil) nofun
  · rw [compile_messages_of_enabled policy records sessionId beforeGeneration henabled,
      imp_iff_right (rfl : true = true), ← selected_marked_iff
        (window_pairwise policy records sessionId beforeGeneration)]
    refine forall₂_congr fun fitted _ => ?_
    constructor
    · rintro ⟨message, hmessage, record, -, heligible, hshortens, hmarked⟩
      exact ⟨message, hmessage, hshortens,
        (rightlyMarked_iff_record heligible hshortens).mpr hmarked⟩
    · rintro ⟨message, hmessage, hshortens, hmarked⟩
      obtain ⟨record, hrecord, heligible⟩ := exists_record_of_mem_window policy records sessionId
        beforeGeneration hmessage
      exact ⟨message, hmessage, record, hrecord, heligible, hshortens,
        (rightlyMarked_iff_record heligible hshortens).mp hmarked⟩

end Compile

/-- **When fitting is exact.** A message is fitted in as its longest beginning that fits, or not
at all if not one character does, unless one character is all that fits and it is not asked
about; and the messages of a history are marked as truncated exactly when they are, unless one
is gone through that is one character too long. -/
theorem history_fitting_exact (policy : RecentConversationHistoryPolicy)
    (message : RecentHistoryMessage) (newer : List RecentHistoryMessage)
    (records : List MessageRecord) (sessionId : Text) (beforeGeneration : ℤ) :
    (FitsExactly policy message newer ↔ ¬OneMissed policy message newer) ∧
    ((∀ fitted ∈ (policy.compile records sessionId beforeGeneration).messages,
        RightlyTruncated policy records sessionId beforeGeneration fitted) ↔
      (policy.enabled = true →
        NoneOver policy (policy.window records sessionId beforeGeneration))) :=
  ⟨fitsExactly_iff, compile_marked_iff policy records sessionId beforeGeneration⟩

/-- A note of one character. -/
def shortNote : RecentHistoryMessage where
  messageId := "m".toList
  sequence := 1
  generation := 1
  role := .user
  content := "?".toList
  truncated := false

/-- A policy that has room for the note with the mark, and not without. -/
def tightPolicy : RecentConversationHistoryPolicy where
  maxChars := (renderHistory [shortNote]).length - 1
  maxMessageChars_pos := defaultMessageChars_pos
  maxMessages_le := defaultMessages_le

/-- The note would fit, and is left out. -/
theorem shortNote_not_exact : ¬FitsExactly tightPolicy shortNote [] := by
  rw [fitsExactly_iff, not_not]
  refine ⟨by decide +kernel, ⟨by decide, by decide, by decide +kernel⟩, fun h => ?_, ?_⟩
  · exact absurd h.2.1 (by decide)
  · have hlength : shortNote.content.length = 1 := rfl
    rw [hlength, halvesToOne, if_pos (by decide)]

/-! ### What is left out -/

/-- A character is written as six characters at most. -/
theorem length_renderMessage_cut_succ_le (message : RecentHistoryMessage) (k : ℕ) :
    (renderMessage (cut message (k + 1 : ℕ))).length ≤
      (renderMessage (cut message k)).length + 6 := by
  have hcontent : (jsonString (message.content.take (k + 1))).length ≤
      (jsonString (message.content.take k)).length + 6 := by
    rw [List.take_add_one, jsonString, jsonString, List.flatMap_append]
    have hchar : (message.content[k]?.toList.flatMap jsonChar).length ≤ 6 := by
      rcases message.content[k]? with _ | c
      · exact Nat.zero_le _
      · rw [Option.toList_some, List.flatMap_singleton]
        exact length_jsonChar_le c
    simp only [List.length_append]
    omega
  simp only [renderMessage, cut, jsonObject, List.map_cons, jsonJoin_cons, List.flatMap_cons,
    List.length_append, Int.toNat_natCast]
  omega

theorem length_renderHistory_le_add {message' : RecentHistoryMessage} {n : ℕ}
    (h : (renderMessage message).length ≤ (renderMessage message').length + n) :
    (renderHistory (message :: messages)).length ≤
      (renderHistory (message' :: messages)).length + n := by
  simp only [renderHistory, List.map_cons, jsonArray, jsonJoin_cons, List.intercalate_cons_cons,
    List.intercalate_singleton, List.length_append]
  omega

/-- A message takes more room than a character. -/
theorem le_length_renderMessage (message : RecentHistoryMessage) :
    10 ≤ (renderMessage message).length := by
  have hkey : (jsonString "message_id".toList).length = 12 := by decide +kernel
  simp only [renderMessage, jsonObject, List.map_cons, jsonJoin_cons, List.length_append, hkey]
  omega

theorem length_renderHistory_cons (hne : messages ≠ []) :
    (renderHistory (message :: messages)).length =
      (renderHistory messages).length + (renderMessage message).length + 1 := by
  obtain ⟨first, messages, rfl⟩ := List.exists_cons_of_ne_nil hne
  simp only [renderHistory, List.map_cons, jsonArray, jsonJoin_cons, List.intercalate_cons_cons,
    List.intercalate_singleton, List.length_append, List.flatMap_cons, List.length_cons,
    List.length_nil]
  omega

/-- Nothing more fits. -/
def Full (policy : RecentConversationHistoryPolicy) (messages : List RecentHistoryMessage) : Prop :=
  messages ≠ [] ∧ policy.maxChars < (renderHistory messages).length + 10

theorem fitMessage_of_full (h : Full policy messages) :
    policy.fitMessage message messages = none := by
  rcases hfit : policy.fitMessage message messages with _ | fitted
  · rfl
  · have hfits := (fitMessage_eq_some hfit).2
    rw [length_renderHistory_cons h.1] at hfits
    have hlength := le_length_renderMessage fitted
    have hfull := h.2
    omega

/-- **A message that was cut down leaves no room.** -/
theorem full_of_cut (h : policy.fitMessage message newer = some fitted) (hne : fitted ≠ message) :
    Full policy (fitted :: newer) := by
  refine ⟨List.cons_ne_nil _ _, ?_⟩
  have hwhole : ¬(renderHistory (message :: newer)).length ≤ policy.maxChars := fun hwhole =>
    hne (Option.some.inj (h.symm.trans (fitMessage_of_fits hwhole)))
  obtain ⟨k, rfl, hlength, hk⟩ := fitMessage_eq_some_of_not_fits hwhole h
  by_cases hall : k = message.content.length
  · subst hall
    have hmarked := length_renderHistory_marked newer (not_marked_of_not_fits hwhole hk)
    omega
  · -- one more character does not fit
    have hmore : ¬(renderHistory (cut message (k + 1 : ℕ) :: newer)).length ≤ policy.maxChars := by
      intro hfits
      have hpos := hk.1
      have hle := hk.2.1
      obtain ⟨fitted, hsome, hlonger⟩ := le_length_fitMessage (by omega) (by omega) hfits
      obtain rfl := Option.some.inj (h.symm.trans hsome)
      omega
    have hrender : (renderHistory (cut message (k + 1 : ℕ) :: newer)).length ≤
        (renderHistory (cut message k :: newer)).length + 6 :=
      length_renderHistory_le_add (length_renderMessage_cut_succ_le message k)
    omega

/-- Only the oldest of what is selected may be cut down; and when it is, nothing more fits. -/
theorem selected_whole (messages : List RecentHistoryMessage) :
    (∀ x ∈ policy.selected messages, x ∈ messages) ∨
      (∀ x ∈ (policy.selected messages).tail, x ∈ messages) ∧
        Full policy (policy.selected messages) := by
  induction messages with
  | nil => exact .inl fun x h => absurd h List.not_mem_nil
  | cons first messages ih =>
    rw [selected_cons]
    rcases hfit : policy.fitMessage first (policy.selected messages) with _ | fitted
    · exact ih.imp (fun h x hx => List.mem_cons_of_mem _ (h x hx))
        (.imp_left fun h x hx => List.mem_cons_of_mem _ (h x hx))
    · obtain hwhole | ⟨-, hfull⟩ := ih
      · rw [Option.toList_some, List.singleton_append]
        by_cases hsame : fitted = first
        · refine .inl fun x hx => ?_
          obtain rfl | hx := List.mem_cons.mp hx
          · exact hsame ▸ List.mem_cons_self
          · exact List.mem_cons_of_mem _ (hwhole x hx)
        · exact .inr ⟨fun x hx => List.mem_cons_of_mem _ (hwhole x hx), full_of_cut hfit hsame⟩
      · exact nomatch (fitMessage_of_full hfull).symm.trans hfit

/-- What is selected of the older messages comes before what is selected of the newer ones. -/
theorem selected_append (policy : RecentConversationHistoryPolicy)
    (older newer : List RecentHistoryMessage) :
    ∃ chosen, policy.selected (older ++ newer) = chosen ++ policy.selected newer ∧
      (chosen.map (·.key)).Sublist (older.map (·.key)) := by
  induction older with
  | nil => exact ⟨[], rfl, List.Sublist.refl _⟩
  | cons first older ih =>
    obtain ⟨chosen, heq, hsub⟩ := ih
    rw [List.cons_append, selected_cons, heq]
    rcases hfit : policy.fitMessage first (chosen ++ policy.selected newer) with _ | fitted
    · exact ⟨chosen, rfl, hsub.cons _⟩
    · refine ⟨fitted :: chosen, rfl, ?_⟩
      rw [List.map_cons, List.map_cons, (fitMessage_eq_some hfit).1.key]
      exact hsub.cons_cons _

/-- **How a history is selected** of the window. -/
structure Greedy (policy : RecentConversationHistoryPolicy)
    (window messages : List RecentHistoryMessage) : Prop where
  /-- In order, messages of the window. -/
  keys : (messages.map (·.key)).Sublist (window.map (·.key))
  shortens : ∀ fitted ∈ messages, ∃ message ∈ window, Shortens fitted message
  /-- What is left out does not fit with the newer messages that are in. -/
  omitted : ∀ message ∈ window, message.key ∉ messages.map (·.key) → ∀ k, 2 ≤ k →
    ¬Fits policy message (messages.filter fun x => decide (message.key < x.key)) k
  /-- All but the oldest are as they were. -/
  whole : ∀ fitted ∈ messages.tail, fitted ∈ window

theorem greedy_selected (hkeys : messages.Pairwise fun a b => a.key < b.key) :
    Greedy policy messages (policy.selected messages) where
  keys := (selected_foldr policy messages).keys
  shortens := (selected_foldr policy messages).shortens
  omitted message hmessage hnot k htwo hfits := by
    obtain ⟨older, newer, rfl⟩ := List.append_of_mem hmessage
    obtain ⟨chosen, heq, hchosen⟩ := selected_append policy older (message :: newer)
    obtain ⟨-, hright, hcross⟩ := List.pairwise_append.mp hkeys
    have hafter := (List.pairwise_cons.mp hright).1
    rw [heq, selected_cons] at hnot hfits
    rcases hfit : policy.fitMessage message (policy.selected newer) with _ | fitted
    · rw [hfit, Option.toList_none, List.nil_append] at hfits
      -- the newer messages that are in are the ones selected of the newer ones
      have hnewer : (chosen ++ policy.selected newer).filter
          (fun x => decide (message.key < x.key)) = policy.selected newer := by
        rw [List.filter_append, List.filter_eq_nil_iff.mpr, List.nil_append,
          List.filter_eq_self.mpr]
        · intro x hx
          obtain ⟨y, hy, hshortens⟩ := (selected_foldr policy newer).shortens x hx
          exact decide_eq_true (hshortens.key ▸ hafter y hy)
        · intro x hx
          obtain ⟨y, hy, hxy⟩ := List.mem_map.mp (hchosen.subset (List.mem_map_of_mem hx))
          have hlt := hcross y hy message List.mem_cons_self
          simpa [← hxy] using hlt.le
      rw [hnewer] at hfits
      obtain ⟨fitted, hsome, -⟩ := le_length_fitMessage htwo hfits.2.1 hfits.2.2
      exact nomatch hfit.symm.trans hsome
    · refine hnot ?_
      rw [hfit, List.map_append, List.map_append]
      refine List.mem_append_right _ (List.mem_append_left _ ?_)
      exact List.mem_singleton.mpr (fitMessage_eq_some hfit).1.key.symm
  whole := (selected_whole messages).elim (fun h x hx => h x (List.mem_of_mem_tail hx)) (·.1)

/-- **A history is selected from the newest to the oldest message**: a message of the window is
left out only if nothing of two characters or more of it fits with the newer ones that are in,
and none but the oldest is cut down to fit. -/
theorem compile_greedy (policy : RecentConversationHistoryPolicy) (records : List MessageRecord)
    (sessionId : Text) (beforeGeneration : ℤ) :
    policy.enabled = false ∧
        (policy.compile records sessionId beforeGeneration).messages = [] ∨
      Greedy policy (policy.window records sessionId beforeGeneration)
        (policy.compile records sessionId beforeGeneration).messages := by
  rcases henabled : policy.enabled
  · exact .inl
      ⟨rfl, compile_messages_of_disabled policy records sessionId beforeGeneration henabled⟩
  · rw [compile_messages_of_enabled policy records sessionId beforeGeneration henabled]
    exact .inr (greedy_selected (window_pairwise policy records sessionId beforeGeneration))

/-- A history without holes: a contiguous newest part of the window, of which only the oldest
message may be cut down. -/
def NoHoles (window messages : List RecentHistoryMessage) : Prop :=
  ∃ suffix, suffix <:+ window ∧ messages.map (·.key) = suffix.map (·.key) ∧
    messages.tail = suffix.tail

/-- A question. -/
def question : MessageRecord where
  messageId := "a".toList
  sessionId := "s".toList
  sequence := 1
  role := .user
  content := "tea?".toList
  createdAt := Datetime.morning
  metadata := [("generation".toList, .integer 1)]
  sequence_pos := Nat.zero_lt_one

/-- Its reply, of the same length; its role is longer. -/
def reply : MessageRecord :=
  { question with
    messageId := "b".toList
    sequence := 2
    role := .assistant
    content := "tea!".toList
    sequence_pos := Nat.two_pos
    content_not_blank := by decide }

/-- What is eligible of the two. -/
def exchange : List RecentHistoryMessage :=
  [⟨"a".toList, 1, 1, .user, "tea?".toList, false⟩,
    ⟨"b".toList, 2, 1, .assistant, "tea!".toList, false⟩]

/-- A policy that has room for the question alone. -/
def questionPolicy : RecentConversationHistoryPolicy where
  maxChars := (renderHistory (exchange.take 1)).length
  maxMessageChars_pos := defaultMessageChars_pos
  maxMessages_le := defaultMessages_le

theorem window_exchange : questionPolicy.window [question, reply] "s".toList 2 = exchange := by
  have hsorted : [question, reply].mergeSort (fun a b => decide (historyKey a ≤ historyKey b)) =
      [question, reply] := List.mergeSort_of_pairwise (by decide)
  rw [window, eligible, hsorted]
  decide +kernel

/-- Not one character of the reply fits. -/
theorem fitMessage_reply :
    questionPolicy.fitMessage ⟨"b".toList, 2, 1, .assistant, "tea!".toList, false⟩ [] = none := by
  by_contra hsome
  obtain ⟨fitted, hfit⟩ := Option.ne_none_iff_exists'.mp hsome
  obtain ⟨k, -, -, hk⟩ := fitMessage_eq_some_of_not_fits (by decide +kernel) hfit
  exact absurd (hk.mono (by decide) hk.1).2.2 (by decide +kernel : ¬_)

theorem selected_exchange : questionPolicy.selected exchange = exchange.take 1 := by
  have hreply : questionPolicy.selected
      [⟨"b".toList, 2, 1, .assistant, "tea!".toList, false⟩] = [] := by
    rw [selected_cons]
    change (questionPolicy.fitMessage _ []).toList ++ [] = []
    rw [fitMessage_reply]
    rfl
  rw [exchange, selected_cons, hreply, fitMessage_of_fits (le_refl _)]
  rfl

/-- The reply is left out, and the question is in. -/
theorem exchange_has_hole : ¬NoHoles (questionPolicy.window [question, reply] "s".toList 2)
    (questionPolicy.compile [question, reply] "s".toList 2).messages := by
  rw [compile_messages_of_enabled _ _ _ _ (by decide +kernel), window_exchange, selected_exchange]
  rintro ⟨suffix, ⟨before, heq⟩, hkeys, -⟩
  have hlength : suffix.length = 1 := by
    have hmap := congrArg List.length hkeys
    rw [List.length_map, List.length_map] at hmap
    exact hmap.symm
  have hbefore : before.length = 1 := by
    have hsum := congrArg List.length heq
    rw [List.length_append, hlength] at hsum
    exact Nat.succ.inj hsum
  -- the suffix of one message is the reply
  obtain rfl : suffix = exchange.drop 1 := by
    rw [← heq, ← hbefore, List.drop_left]
  exact absurd hkeys (by decide)

end RecentConversationHistoryPolicy

end Eeveetuber
