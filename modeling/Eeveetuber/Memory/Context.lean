import Mathlib.Data.Char
import Mathlib.Data.List.Lex
import Mathlib.Data.Prod.Lex
import Eeveetuber.Foundation.JsonText
import Eeveetuber.Memory.Estimator

/-!
# The context compiler

What a model is told about its character and its owner is compiled before each turn
from entries in three tiers. A tier has a budget of tokens, and the whole context one.
`Eeveetuber.Memory.ContextCompiler.compile` goes through the tiers in order and through the
entries of each by priority; an entry that does not fit is cut down if it is
mandatory, moved to the next tier if it may be, and dropped otherwise.
-/

namespace Eeveetuber.Memory

open Foundation

/-! ### Requests -/

inductive ContextTier where
  | t0Canon
  | t1Hot
  | t2Map
deriving DecidableEq, Repr

inductive ContextClass where
  | canon
  | persona
  | ownerProfile
  | relationship
  | sessionState
  | memoryDirectory
deriving DecidableEq, Repr

/-- The value of a class. -/
def ContextClass.value : ContextClass → Text
  | .canon => "canon".toList
  | .persona => "persona".toList
  | .ownerProfile => "owner_profile".toList
  | .relationship => "relationship".toList
  | .sessionState => "session_state".toList
  | .memoryDirectory => "memory_directory".toList

structure ContextBudget where
  t0Tokens : ℕ := 512
  t1Tokens : ℕ := 768
  t2Tokens : ℕ := 384
  totalTokens : ℕ := 1664
  t0_pos : 1 ≤ t0Tokens := by decide
  total_pos : 1 ≤ totalTokens := by decide
deriving DecidableEq

/-- The budget of a tier. -/
def ContextBudget.configured (budget : ContextBudget) : ContextTier → ℕ
  | .t0Canon => budget.t0Tokens
  | .t1Hot => budget.t1Tokens
  | .t2Map => budget.t2Tokens

/-- What a snapshot is pinned to. -/
structure ContextRevisionPin where
  «namespace» : Text
  memoryGeneration : ℕ
  canonRevision : Text
  personaRevision : Option Text := none
  profileRevision : Option Text := none
  relationshipRevision : Option Text := none
  sessionRevision : Option Text := none
  recipeRevision : Text := "default-v1".toList
  namespace_inLength : InLength 256 «namespace» := by decide
  canonRevision_inLength : InLength 128 canonRevision := by decide
  recipeRevision_inLength : InLength 128 recipeRevision := by decide
  revisions_le : ∀ r ∈ [personaRevision, profileRevision, relationshipRevision, sessionRevision],
    ∀ t ∈ r, t.length ≤ 128 := by simp
deriving DecidableEq

structure ContextEntry where
  entryId : Text
  tier : ContextTier
  contextClass : ContextClass
  text : Text
  priority : ℤ := 0
  mandatory : Bool := false
  demotable : Bool := true
  sourceRevisionId : Option Text := none
  sourceMemoryId : Option Text := none
  entryId_inLength : InLength 256 entryId := by decide
  text_ne_nil : text ≠ [] := by decide
  priority_bounds : -10000 ≤ priority ∧ priority ≤ 10000 := by decide
  sourceRevisionId_le : ∀ t ∈ sourceRevisionId, t.length ≤ 128 := by simp
  sourceMemoryId_le : ∀ t ∈ sourceMemoryId, t.length ≤ 128 := by simp
deriving DecidableEq

/-- No revision has no length. -/
theorem ContextEntry.noRevision_le : ∀ t ∈ (none : Option Text), t.length ≤ 128 :=
  fun t ht => absurd ht (Option.not_mem_none t)

structure ContextCompileRequest where
  sessionId : Text
  turnId : Text
  revision : ContextRevisionPin
  budget : ContextBudget := {}
  entries : List ContextEntry := []
  activityMode : Text := "conversation".toList
  privacyRecipe : Text := "private".toList
  minimalCanon : Text :=
    "Remain in character and follow the current owner's explicit intent.".toList
  sessionId_inLength : InLength 128 sessionId := by decide
  turnId_inLength : InLength 128 turnId := by decide
  activityMode_inLength : InLength 64 activityMode := by decide
  privacyRecipe_inLength : InLength 64 privacyRecipe := by decide
  minimalCanon_ne_nil : minimalCanon ≠ [] := by decide
  /-- The check of the request. -/
  uniqueEntries : (entries.map (·.entryId)).Nodup := by decide

/-! ### Snapshots -/

structure CompiledContextEntry where
  entryId : Text
  originalTier : ContextTier
  tier : ContextTier
  contextClass : ContextClass
  text : Text
  estimatedTokens : ℕ
  priority : ℤ
  mandatory : Bool
  sourceRevisionId : Option Text
  sourceMemoryId : Option Text
deriving DecidableEq

structure ContextDemotion where
  entryId : Text
  fromTier : ContextTier
  toTier : ContextTier
  reason : String := "tier_budget_exceeded"
deriving DecidableEq

structure ContextTrim where
  entryId : Text
  tier : ContextTier
  originalTokens : ℕ
  retainedTokens : ℕ
  reason : String
deriving DecidableEq

structure ContextDrop where
  entryId : Text
  tier : ContextTier
  reason : String
deriving DecidableEq

structure ContextTokenUsage where
  t0Tokens : ℕ
  t1Tokens : ℕ
  t2Tokens : ℕ
  totalTokens : ℕ
deriving DecidableEq

/-- The usage of a tier. -/
def ContextTokenUsage.ofTier (usage : ContextTokenUsage) : ContextTier → ℕ
  | .t0Canon => usage.t0Tokens
  | .t1Hot => usage.t1Tokens
  | .t2Map => usage.t2Tokens

/-- A snapshot, without its identifier and its time. -/
structure ContextSnapshot where
  sessionId : Text
  turnId : Text
  revision : ContextRevisionPin
  activityMode : Text
  privacyRecipe : Text
  budget : ContextBudget
  entries : List CompiledContextEntry
  usage : ContextTokenUsage
  demotions : List ContextDemotion
  trims : List ContextTrim
  drops : List ContextDrop
  usedMinimalFallback : Bool
  renderedContext : Text

/-! ### The order of entries -/

/-- `_TIER_ORDER`. -/
def tierOrder : List ContextTier := [.t0Canon, .t1Hot, .t2Map]

/-- `_NEXT_TIER`. -/
def ContextTier.next : ContextTier → Option ContextTier
  | .t0Canon => some .t1Hot
  | .t1Hot => some .t2Map
  | .t2Map => none

/-- The place of a tier in the order. -/
def ContextTier.index : ContextTier → ℕ
  | .t0Canon => 0
  | .t1Hot => 1
  | .t2Map => 2

/-- `_entry_sort_key`. -/
def entrySortKey (entry : ContextEntry) : ℤ ×ₗ ℤ ×ₗ Text :=
  toLex (-(if entry.mandatory then 1 else 0), toLex (-entry.priority, entry.entryId))

/-- The key of an entry in a snapshot. -/
def compiledSortKey (entry : CompiledContextEntry) : ℕ ×ₗ ℤ ×ₗ Text :=
  toLex (entry.tier.index, toLex (-entry.priority, entry.entryId))

/-! ### Rendering -/

/-- What is rendered of an entry. -/
def renderEntry (item : CompiledContextEntry) : Text :=
  jsonObject
    [("id".toList, jsonString item.entryId), ("class".toList, jsonString item.contextClass.value),
      ("text".toList, jsonString item.text),
      ("revision_id".toList, jsonOptional item.sourceRevisionId),
      ("memory_id".toList, jsonOptional item.sourceMemoryId)]

/-- The entries of a tier. -/
def renderTier (entries : List CompiledContextEntry) (tier : ContextTier) : Text :=
  jsonArray ((entries.filter fun item => item.tier = tier).map renderEntry)

/-- `_render_context`. -/
def renderContext (revision : ContextRevisionPin) (entries : List CompiledContextEntry) : Text :=
  ['\n'].intercalate
    ["<context_snapshot namespace=\"".toList ++ revision.namespace ++ "\" generation=\"".toList ++
        (toString revision.memoryGeneration).toList ++ "\">".toList,
      "<owner_canon instruction_authority=\"true\">".toList,
      renderTier entries .t0Canon,
      "</owner_canon>".toList,
      "<personal_context instruction_authority=\"false\" data_only=\"true\">".toList,
      renderTier entries .t1Hot,
      "</personal_context>".toList,
      "<memory_directory instruction_authority=\"false\" untrusted_data=\"true\">".toList,
      renderTier entries .t2Map,
      "</memory_directory>".toList,
      "</context_snapshot>".toList]

/-! ### Compiling -/

/-- The local variables of `compile`. -/
structure Compilation where
  queues : ContextTier → List (ContextEntry × ContextTier)
  selected : List CompiledContextEntry
  demotions : List ContextDemotion
  trims : List ContextTrim
  drops : List ContextDrop
  usedByTier : ContextTier → ℕ
  totalUsed : ℕ

/-- `_compiled`. -/
def compiled (entry : ContextEntry) (originalTier tier : ContextTier) (tokens : ℕ)
    (text : Text) : CompiledContextEntry where
  entryId := entry.entryId
  originalTier := originalTier
  tier := tier
  contextClass := entry.contextClass
  text := text
  estimatedTokens := tokens
  priority := entry.priority
  mandatory := entry.mandatory
  sourceRevisionId := entry.sourceRevisionId
  sourceMemoryId := entry.sourceMemoryId

namespace Compilation

/-- An entry is selected, and its tokens are accounted for. -/
def select (c : Compilation) (entry : CompiledContextEntry) : Compilation :=
  { c with
    selected := c.selected ++ [entry]
    usedByTier := Function.update c.usedByTier entry.tier
      (c.usedByTier entry.tier + entry.estimatedTokens)
    totalUsed := c.totalUsed + entry.estimatedTokens }

/-- An entry that does not fit goes to the next tier, if it may. -/
def passOn (c : Compilation) (tier : ContextTier) (entry : ContextEntry)
    (originalTier : ContextTier) : Compilation :=
  let dropped : Compilation :=
    { c with drops := c.drops ++ [⟨entry.entryId, tier, "total_or_tier_budget_exceeded"⟩] }
  match tier.next with
  | some nextTier =>
    if entry.demotable = true ∧ entry.mandatory = false then
      { c with
        queues := Function.update c.queues nextTier (c.queues nextTier ++ [(entry, originalTier)])
        demotions := c.demotions ++ [⟨entry.entryId, tier, nextTier, "tier_budget_exceeded"⟩] }
    else dropped
  | none => dropped

variable (estimator : TokenEstimator)

/-- One entry of the queue of a tier. -/
def place (tier : ContextTier) (tierAllowance : ℤ) (c : Compilation)
    (item : ContextEntry × ContextTier) : Compilation :=
  let (entry, originalTier) := item
  let tokens := estimator.estimate entry.text
  let remaining := (tierAllowance - c.usedByTier tier).toNat
  let retained := estimator.truncate entry.text remaining
  if tokens ≤ remaining then
    c.select (compiled entry originalTier tier tokens entry.text)
  else if entry.mandatory = true ∧ 0 < remaining ∧ retained ≠ [] then
    let retainedTokens := estimator.estimate retained
    { c.select (compiled entry originalTier tier retainedTokens retained) with
      trims := c.trims ++
        [⟨entry.entryId, tier, tokens, retainedTokens, "mandatory_entry_truncated_to_budget"⟩] }
  else c.passOn tier entry originalTier

/-- The queue of a tier, in the order it is gone through. -/
def sortedQueue (c : Compilation) (tier : ContextTier) : List (ContextEntry × ContextTier) :=
  (c.queues tier).mergeSort fun a b => decide (entrySortKey a.1 ≤ entrySortKey b.1)

/-- What a tier may use. -/
def allowance (budget : ContextBudget) (c : Compilation) (tier : ContextTier) : ℤ :=
  min (budget.configured tier : ℤ) (budget.totalTokens - c.totalUsed)

/-- One tier. -/
def compileTier (budget : ContextBudget) (c : Compilation) (tier : ContextTier) : Compilation :=
  (c.sortedQueue tier).foldl (place estimator tier (c.allowance budget tier)) c

/-- Before the first tier: each entry in the queue of its tier. -/
def start (entries : List ContextEntry) : Compilation where
  queues tier := (entries.filter fun entry => entry.tier = tier).map fun entry =>
    (entry, entry.tier)
  selected := []
  demotions := []
  trims := []
  drops := []
  usedByTier _ := 0
  totalUsed := 0

end Compilation

namespace ContextCompileRequest

variable (request : ContextCompileRequest)

/-- Whether no mandatory entry of the first tier was given. -/
def usesFallback : Bool :=
  !request.entries.any fun entry => decide (entry.tier = .t0Canon) && entry.mandatory

/-- The entry that stands in for it. -/
def fallback : ContextEntry where
  entryId := "__minimal_canon__".toList
  tier := .t0Canon
  contextClass := .canon
  text := request.minimalCanon
  priority := 10000
  mandatory := true
  demotable := false
  sourceRevisionId := some request.revision.canonRevision
  sourceMemoryId := none
  entryId_inLength := by decide
  text_ne_nil := request.minimalCanon_ne_nil
  priority_bounds := by decide
  sourceRevisionId_le t ht := by
    obtain rfl := Option.some.inj ht
    exact request.revision.canonRevision_inLength.2
  sourceMemoryId_le := nofun

/-- The entries that are compiled. -/
def allEntries : List ContextEntry :=
  if request.usesFallback then request.entries ++ [request.fallback] else request.entries

end ContextCompileRequest

/-- A compiler; its identifiers and its clock are left out. -/
structure ContextCompiler where
  estimator : TokenEstimator := Utf8HeuristicTokenEstimator

namespace ContextCompiler

/-- All tiers. -/
def compileTiers (compiler : ContextCompiler) (request : ContextCompileRequest) : Compilation :=
  tierOrder.foldl (Compilation.compileTier compiler.estimator request.budget)
    (.start request.allEntries)

def compile (compiler : ContextCompiler) (request : ContextCompileRequest) : ContextSnapshot :=
  let c := compiler.compileTiers request
  let selected := c.selected.mergeSort fun a b => decide (compiledSortKey a ≤ compiledSortKey b)
  { sessionId := request.sessionId
    turnId := request.turnId
    revision := request.revision
    activityMode := request.activityMode
    privacyRecipe := request.privacyRecipe
    budget := request.budget
    entries := selected
    usage := {
      t0Tokens := c.usedByTier .t0Canon
      t1Tokens := c.usedByTier .t1Hot
      t2Tokens := c.usedByTier .t2Map
      totalTokens := c.totalUsed }
    demotions := c.demotions
    trims := c.trims
    drops := c.drops
    usedMinimalFallback := request.usesFallback
    renderedContext := renderContext request.revision selected }

end ContextCompiler

end Eeveetuber.Memory
