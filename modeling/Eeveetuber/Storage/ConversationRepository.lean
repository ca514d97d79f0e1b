import Eeveetuber.Foundation.Datetime
import Eeveetuber.Foundation.Keyed

/-!
# The messages of conversations

The table of the messages, to which messages are only ever appended
(`Eeveetuber.Storage.Conversations.append`), and the newest messages of a session before a given
place (`Eeveetuber.Storage.Conversations.listRecentBefore`).
-/

namespace Eeveetuber.Storage

open Foundation

inductive MessageRole where
  | system
  | user
  | assistant
  | tool
deriving DecidableEq

/-- The value of a role. -/
def MessageRole.value : MessageRole → Text
  | .system => "system".toList
  | .user => "user".toList
  | .assistant => "assistant".toList
  | .tool => "tool".toList

/-- A value in the metadata of a message. -/
inductive MetadataValue where
  | null
  | boolean (value : Bool)
  | integer (value : ℤ)
  | text (value : Text)
  /-- A number with a fraction, a list or a dictionary, as it is encoded. -/
  | other (encoded : Text)
deriving DecidableEq

@[ext]
structure MessageRecord where
  messageId : Text
  sessionId : Text
  sequence : ℕ
  role : MessageRole
  content : Text
  createdAt : Datetime
  actorId : Option Text := none
  sourceEventId : Option Text := none
  metadata : List (Text × MetadataValue) := []
  sequence_pos : 1 ≤ sequence := by decide
  /-- `reject_blank_conversation_content`. -/
  content_not_blank : role = .user ∨ role = .assistant → strip content ≠ [] := by decide

instance : DecidableEq MessageRecord := fun _ _ => decidable_of_iff _ MessageRecord.ext_iff.symm

/-- The tables of sessions and of messages. -/
structure Conversations where
  sessions : List Text
  messages : Keyed MessageRecord.messageId

/-- What the repository raises. -/
inductive ConversationError where
  | recordNotFound (sessionId : Text)
  | stableIdConflict (messageId : Text)
  /-- A constraint of a table. -/
  | integrity
  | value (message : String)
deriving DecidableEq

namespace Conversations

/-- `MessageRepository.append`. The sequence of a message is unique in its session. -/
def append (store : Conversations) (record : MessageRecord) :
    Except ConversationError Conversations :=
  if record.sessionId ∉ store.sessions then .error (.recordNotFound record.sessionId)
  else
    match store.messages.find? record.messageId with
    | some stored =>
      if stored ≠ record then .error (.stableIdConflict record.messageId) else .ok store
    | none =>
      if store.messages.values.any fun row =>
          row.sessionId = record.sessionId ∧ row.sequence = record.sequence then
        .error .integrity
      else .ok { store with messages := store.messages.insert record }

/-- The messages of a session before a place, in the order they are selected in. -/
def before (store : Conversations) (sessionId : Text) (beforeSequence : ℕ) : List MessageRecord :=
  (store.messages.values.filter fun row =>
    row.sessionId = sessionId ∧ row.sequence < beforeSequence).mergeSort
      fun a b => decide (b.sequence ≤ a.sequence)

/-- `MessageRepository.list_recent_before`. -/
def listRecentBefore (store : Conversations) (sessionId : Text) (beforeSequence limit : ℕ) :
    Except ConversationError (List MessageRecord) :=
  if beforeSequence < 1 then .error (.value "before_sequence must be positive")
  else if ¬ (1 ≤ limit ∧ limit ≤ 1000) then .error (.value "limit must be between 1 and 1000")
  else .ok ((store.before sessionId beforeSequence).take limit).reverse

end Conversations

end Eeveetuber.Storage
