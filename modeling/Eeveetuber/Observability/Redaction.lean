import Eeveetuber.Domain.Payload
import Eeveetuber.Foundation.DictLoops

/-!
# Redacting log events

Before a log event is rendered, the values of its sensitive fields are replaced, at any depth:
`Eeveetuber.Observability.redactValue` goes over the mappings and the sequences of a value and
replaces what is under a key that is sensitive (`Eeveetuber.Observability.isSensitive`).

Both things to be said are inductions over the values. **What sensitive keys hide makes no
difference** (`Eeveetuber.Observability.redactSensitiveValues_eq`): events that are
`Eeveetuber.Observability.EventsAlike` are redacted to the same event. **What they do not hide is
kept**, up to the kinds of its mappings and sequences
(`Eeveetuber.Observability.keeps_redactSensitiveValues`), at whatever place it is.
-/

namespace Eeveetuber.Observability

open Foundation

/-! ### Log values -/

/-- A key of a mapping. -/
inductive LogKey (α : Type) where
  | text (t : Text)
  | other (object : α)
deriving DecidableEq

/-- What a log event has under a key. -/
inductive LogValue (α : Type) where
  | text (t : Text)
  /-- An object that is neither a mapping nor a sequence, or bytes. -/
  | other (object : α)
  | sequence (kind : SequenceKind) (children : List (LogValue α))
  /-- The items are in the order of the mapping, each key once. -/
  | mapping (kind : MappingKind) (items : List (LogKey α × LogValue α))

variable {α : Type}

/-- What Python makes of texts and of other objects. -/
structure Stringification (α : Type) where
  /-- `str(object)`, of an object that is not a text. -/
  str : α → Text
  /-- `str.lower()`, which follows Unicode. -/
  lower : Text → Text
  lower_ascii : ∀ t, (∀ c ∈ t, c.toNat < 128) → lower t = t.map Char.toLower

/-- `str(key)`. -/
def LogKey.str (python : Stringification α) : LogKey α → Text
  | text t => t
  | other object => python.str object

/-! ### Redaction -/

/-- `_REDACTED`. -/
def redacted : LogValue α := .text "[REDACTED]".toList

/-- `_SENSITIVE_FIELDS`. -/
def sensitiveFields : List Text :=
  ["api_key".toList, "audio_base64".toList, "authorization".toList, "chain_of_thought".toList,
    "content".toList, "cookie".toList, "display_text".toList, "messages".toList,
    "password".toList, "private_reasoning".toList, "prompt".toList, "raw_reasoning".toList,
    "refresh_token".toList, "response_text".toList, "secret".toList, "set_cookie".toList,
    "speakable_text".toList, "text".toList, "user_text".toList]

/-- The ends of other keys that are sensitive. -/
def sensitiveEndings : List Text :=
  ["_password".toList, "_secret".toList, "_token".toList, "_api_key".toList]

/-- `key.lower().replace("-", "_")`. -/
def normalize (python : Stringification α) (key : Text) : Text :=
  (python.lower key).map fun c => if c = '-' then '_' else c

def isSensitive (python : Stringification α) (key : Text) : Bool :=
  normalize python key ∈ sensitiveFields ||
    sensitiveEndings.any fun ending => ending.isSuffixOf (normalize python key)

/-- The items of a dictionary of texts. -/
def dictItems (event : Mapping Text (LogValue α)) : List (LogKey α × LogValue α) :=
  event.values.map fun item => (.text item.1, item.2)

mutual

/-- `_redact_value`. -/
def redactValue (python : Stringification α) (key : Text) : LogValue α → LogValue α
  | .mapping _ items =>
    if isSensitive python key then redacted
    else .mapping .dict (dictItems (Keyed.ofItems (redactItems python items)))
  | .sequence _ children =>
    if isSensitive python key then redacted else .sequence .list (redactChildren python children)
  -- another value is returned as it is
  | .text t => if isSensitive python key then redacted else .text t
  | .other object => if isSensitive python key then redacted else .other object

def redactItems (python : Stringification α) :
    List (LogKey α × LogValue α) → List (Text × LogValue α)
  | [] => []
  | (key, child) :: items =>
    (key.str python, redactValue python (key.str python) child) :: redactItems python items

def redactChildren (python : Stringification α) : List (LogValue α) → List (LogValue α)
  | [] => []
  | child :: children =>
    redactValue python "item".toList child :: redactChildren python children

end

/-- A log event. -/
abbrev LogEvent (α : Type) := Mapping Text (LogValue α)

/-- `_redact_sensitive_values`. -/
def redactSensitiveValues (python : Stringification α) (event : LogEvent α) : LogEvent α :=
  event.updateAll (redactValue python)

/-! ### What one value is redacted to -/

section

variable {python : Stringification α} {key : Text} {value : LogValue α} {kind : SequenceKind}
  {children : List (LogValue α)} {items : List (LogKey α × LogValue α)}

/-- **Induction over a value**: over the children of its sequences and the values of its
mappings. -/
theorem LogValue.induction {P : LogValue α → Prop} (htext : ∀ t, P (.text t))
    (hother : ∀ object, P (.other object))
    (hsequence : ∀ kind children, (∀ child ∈ children, P child) → P (.sequence kind children))
    (hmapping : ∀ kind items, (∀ item ∈ items, P item.2) → P (.mapping kind items))
    (value : LogValue α) : P value := by
  refine @LogValue.rec α P (fun children => ∀ child ∈ children, P child)
    (fun items => ∀ item ∈ items, P item.2) (fun item => P item.2)
    htext hother hsequence hmapping ?_ ?_ ?_ ?_ ?_ value
  · exact fun child h => absurd h List.not_mem_nil
  · exact fun _ _ hchild hchildren => List.forall_mem_cons.mpr ⟨hchild, hchildren⟩
  · exact fun item h => absurd h List.not_mem_nil
  · exact fun _ _ hitem hitems => List.forall_mem_cons.mpr ⟨hitem, hitems⟩
  · exact fun _ _ hchild => hchild

theorem redactItems_eq : redactItems python items =
    items.map fun item => (item.1.str python, redactValue python (item.1.str python) item.2) := by
  induction items with
  | nil => rfl
  | cons item items ih => rw [redactItems, List.map_cons, ih]

theorem redactChildren_eq : redactChildren python children =
    children.map (redactValue python "item".toList) := by
  induction children with
  | nil => rfl
  | cons child children ih => rw [redactChildren, List.map_cons, ih]

/-- What a sensitive key hides. -/
theorem redactValue_of_sensitive (h : isSensitive python key = true) (value : LogValue α) :
    redactValue python key value = redacted := by
  cases value with
  | _ => rw [redactValue, if_pos h]

variable (hkey : isSensitive python key = false)

include hkey

theorem redactValue_text (t : Text) : redactValue python key (.text t) = .text t := by
  rw [redactValue, if_neg (ne_true_of_eq_false hkey)]

theorem redactValue_other (object : α) :
    redactValue python key (.other object) = .other object := by
  rw [redactValue, if_neg (ne_true_of_eq_false hkey)]

theorem redactValue_sequence (kind : SequenceKind) (children : List (LogValue α)) :
    redactValue python key (.sequence kind children) =
      .sequence .list (children.map (redactValue python "item".toList)) := by
  rw [redactValue, if_neg (ne_true_of_eq_false hkey), redactChildren_eq]

theorem redactValue_mapping (kind : MappingKind) (items : List (LogKey α × LogValue α)) :
    redactValue python key (.mapping kind items) =
      .mapping .dict (dictItems (Keyed.ofItems (redactItems python items))) := by
  rw [redactValue, if_neg (ne_true_of_eq_false hkey)]

end

/-! ### What sensitive keys hide -/

section

variable (python : Stringification α)

mutual

/-- Values under a key that are the same but for what sensitive keys hide. -/
def ValuesAlike (key : Text) : LogValue α → LogValue α → Prop
  | .mapping _ items, value => isSensitive python key = true ∨
    ∃ kind items', value = .mapping kind items' ∧ ItemsAlike items items'
  | .sequence _ children, value => isSensitive python key = true ∨
    ∃ kind children', value = .sequence kind children' ∧ ChildrenAlike children children'
  | .text t, value => isSensitive python key = true ∨ value = .text t
  | .other object, value => isSensitive python key = true ∨ value = .other object

def ItemsAlike : List (LogKey α × LogValue α) → List (LogKey α × LogValue α) → Prop
  | [], items' => items' = []
  | (key, child) :: items, items' => ∃ child' rest, items' = (key, child') :: rest ∧
    ValuesAlike (key.str python) child child' ∧ ItemsAlike items rest

def ChildrenAlike : List (LogValue α) → List (LogValue α) → Prop
  | [], children' => children' = []
  | child :: children, children' => ∃ child' rest, children' = child' :: rest ∧
    ValuesAlike "item".toList child child' ∧ ChildrenAlike children rest

end

/-- Events that are the same but for what sensitive keys hide. -/
def EventsAlike (event event' : LogEvent α) : Prop :=
  List.Forall₂ (fun item item' => item.1 = item'.1 ∧ ValuesAlike python item.1 item.2 item'.2)
    event.values event'.values

end

section

variable {python : Stringification α} {key : Text} {value value' : LogValue α}
  {children children' : List (LogValue α)} {items items' : List (LogKey α × LogValue α)}

theorem redactItems_congr (h : ItemsAlike python items items')
    (hitems : ∀ item ∈ items, ∀ key value', ValuesAlike python key item.2 value' →
      redactValue python key item.2 = redactValue python key value') :
    redactItems python items = redactItems python items' := by
  induction items generalizing items' with
  | nil =>
    obtain rfl : items' = [] := h
    rfl
  | cons item items ih =>
    obtain ⟨key, child⟩ := item
    obtain ⟨child', rest, rfl, hchild, hrest⟩ := h
    obtain ⟨hfirst, hitems⟩ := List.forall_mem_cons.mp hitems
    rw [redactItems, redactItems, hfirst _ _ hchild, ih hrest hitems]

theorem redactChildren_congr (h : ChildrenAlike python children children')
    (hchildren : ∀ child ∈ children, ∀ key value', ValuesAlike python key child value' →
      redactValue python key child = redactValue python key value') :
    redactChildren python children = redactChildren python children' := by
  induction children generalizing children' with
  | nil =>
    obtain rfl : children' = [] := h
    rfl
  | cons child children ih =>
    obtain ⟨child', rest, rfl, hchild, hrest⟩ := h
    obtain ⟨hfirst, hchildren⟩ := List.forall_mem_cons.mp hchildren
    rw [redactChildren, redactChildren, hfirst _ _ hchild, ih hrest hchildren]

/-- **Values that are the same but for what sensitive keys hide** are redacted to the same
value. -/
theorem redactValue_congr (h : ValuesAlike python key value value') :
    redactValue python key value = redactValue python key value' := by
  induction value using LogValue.induction generalizing key value' with
  | htext t =>
    obtain hkey | rfl := h
    · rw [redactValue_of_sensitive hkey, redactValue_of_sensitive hkey]
    · rfl
  | hother object =>
    obtain hkey | rfl := h
    · rw [redactValue_of_sensitive hkey, redactValue_of_sensitive hkey]
    · rfl
  | hsequence kind children ih =>
    obtain hkey | ⟨kind', children', rfl, hchildren⟩ := h
    · rw [redactValue_of_sensitive hkey, redactValue_of_sensitive hkey]
    · rw [redactValue, redactValue,
        redactChildren_congr hchildren fun child hchild _ _ => ih child hchild]
  | hmapping kind items ih =>
    obtain hkey | ⟨kind', items', rfl, hitems⟩ := h
    · rw [redactValue_of_sensitive hkey, redactValue_of_sensitive hkey]
    · rw [redactValue, redactValue, redactItems_congr hitems fun item hitem _ _ => ih item hitem]

theorem values_redactSensitiveValues (event : LogEvent α) :
    (redactSensitiveValues python event).values =
      event.values.map fun item => (item.1, redactValue python item.1 item.2) :=
  Mapping.values_updateAll

/-- **What sensitive keys hide makes no difference.** -/
theorem redactSensitiveValues_congr {event event' : LogEvent α}
    (h : EventsAlike python event event') :
    redactSensitiveValues python event = redactSensitiveValues python event' := by
  ext1
  rw [values_redactSensitiveValues, values_redactSensitiveValues]
  refine List.forall₂_eq_eq_eq ▸ List.forall₂_map_left_iff.mpr (List.forall₂_map_right_iff.mpr ?_)
  refine h.imp ?_
  rintro ⟨key, value⟩ ⟨key', value'⟩ ⟨rfl, hvalue⟩
  exact congrArg (Prod.mk key) (redactValue_congr hvalue)

end

/-! ### What is kept -/

mutual

/-- A value whose mappings have texts as keys. -/
def IsStringKeyed : LogValue α → Prop
  | .mapping _ items => (∀ item ∈ items, ∃ t, item.1 = .text t) ∧ (items.map Prod.fst).Nodup ∧
    ItemsStringKeyed items
  | .sequence _ children => ChildrenStringKeyed children
  | .text _ | .other _ => True

def ItemsStringKeyed : List (LogKey α × LogValue α) → Prop
  | [] => True
  | (_, child) :: items => IsStringKeyed child ∧ ItemsStringKeyed items

def ChildrenStringKeyed : List (LogValue α) → Prop
  | [] => True
  | child :: children => IsStringKeyed child ∧ ChildrenStringKeyed children

end

/-- A log event whose values have mappings of texts. -/
def EventStringKeyed (event : LogEvent α) : Prop := ∀ item ∈ event, IsStringKeyed item.2

section

variable (python : Stringification α)

mutual

/-- A value without sensitive keys. -/
def IsClear : LogValue α → Prop
  | .mapping _ items => ItemsClear items
  | .sequence _ children => ChildrenClear children
  | .text _ | .other _ => True

def ItemsClear : List (LogKey α × LogValue α) → Prop
  | [] => True
  | (key, child) :: items =>
    isSensitive python (key.str python) = false ∧ IsClear child ∧ ItemsClear items

def ChildrenClear : List (LogValue α) → Prop
  | [] => True
  | child :: children => IsClear child ∧ ChildrenClear children

end

mutual

/-- A value with its mappings as dictionaries of texts and its sequences as lists. -/
def convert : LogValue α → LogValue α
  | .mapping _ items => .mapping .dict (convertItems items)
  | .sequence _ children => .sequence .list (convertChildren children)
  | .text t => .text t
  | .other object => .other object

def convertItems : List (LogKey α × LogValue α) → List (LogKey α × LogValue α)
  | [] => []
  | (key, child) :: items => (.text (key.str python), convert child) :: convertItems items

def convertChildren : List (LogValue α) → List (LogValue α)
  | [] => []
  | child :: children => convert child :: convertChildren children

end

end

/-- A step from a value to a value in it. -/
inductive LogStep where
  | key (t : Text)
  | index (i : ℕ)

/-- The key that the value after a step is redacted under. -/
def LogStep.field : LogStep → Text
  | key t => t
  | index _ => "item".toList

/-- Whether a key is a text. -/
def LogKey.isText : LogKey α → Text → Bool
  | text t, t' => t = t'
  | other _, _ => false

/-- The value at a place of a value. -/
def LogValue.lookup : LogValue α → List LogStep → Option (LogValue α)
  | value, [] => some value
  | .mapping _ items, .key t :: path =>
    (items.find? fun item => item.1.isText t).bind fun item => item.2.lookup path
  | .sequence _ children, .index i :: path => children[i]?.bind fun child => child.lookup path
  | .mapping _ _, .index _ :: _ => none
  | .sequence _ _, .key _ :: _ => none
  | .text _, _ :: _ => none
  | .other _, _ :: _ => none

/-- The key that the value at a place is redacted under. -/
def fieldAt (key : Text) (path : List LogStep) : Text :=
  (path.getLast?.map LogStep.field).getD key

/-- A value that is kept, but for what is under its keys. -/
inductive KeepsLayer : LogValue α → LogValue α → Prop
  | text (t : Text) : KeepsLayer (.text t) (.text t)
  | other (object : α) : KeepsLayer (.other object) (.other object)
  | sequence (kind : SequenceKind) (children kept : List (LogValue α))
      (length_eq : kept.length = children.length) :
    KeepsLayer (.sequence kind children) (.sequence .list kept)
  | mapping (kind : MappingKind) (items kept : List (LogKey α × LogValue α))
      (keys_eq : kept.map Prod.fst = items.map Prod.fst) :
    KeepsLayer (.mapping kind items) (.mapping .dict kept)

section

variable {python : Stringification α} {key : Text} {value : LogValue α}
  {children : List (LogValue α)} {items : List (LogKey α × LogValue α)}

theorem itemsStringKeyed_iff : ItemsStringKeyed items ↔ ∀ item ∈ items, IsStringKeyed item.2 := by
  induction items with
  | nil => exact iff_of_true trivial fun item h => absurd h List.not_mem_nil
  | cons item items ih => rw [ItemsStringKeyed, List.forall_mem_cons, ih]

theorem childrenStringKeyed_iff :
    ChildrenStringKeyed children ↔ ∀ child ∈ children, IsStringKeyed child := by
  induction children with
  | nil => exact iff_of_true trivial fun child h => absurd h List.not_mem_nil
  | cons child children ih => rw [ChildrenStringKeyed, List.forall_mem_cons, ih]

theorem itemsClear_iff : ItemsClear python items ↔
    ∀ item ∈ items, isSensitive python (item.1.str python) = false ∧ IsClear python item.2 := by
  induction items with
  | nil => exact iff_of_true trivial fun item h => absurd h List.not_mem_nil
  | cons item items ih => rw [ItemsClear, List.forall_mem_cons, ih, and_assoc]

theorem childrenClear_iff :
    ChildrenClear python children ↔ ∀ child ∈ children, IsClear python child := by
  induction children with
  | nil => exact iff_of_true trivial fun child h => absurd h List.not_mem_nil
  | cons child children ih => rw [ChildrenClear, List.forall_mem_cons, ih]

theorem convertItems_eq : convertItems python items =
    items.map fun item => (.text (item.1.str python), convert python item.2) := by
  induction items with
  | nil => rfl
  | cons item items ih => rw [convertItems, List.map_cons, ih]

theorem convertChildren_eq : convertChildren python children = children.map (convert python) := by
  induction children with
  | nil => rfl
  | cons child children ih => rw [convertChildren, List.map_cons, ih]

/-- The children of sequences are not hidden. -/
theorem isSensitive_item (python : Stringification α) :
    isSensitive python "item".toList = false := by
  have hascii : ("item".toList.all fun c => decide (c.toNat < 128)) = true := by decide
  have hnormalize : normalize python "item".toList = "item".toList := by
    rw [normalize, python.lower_ascii _ fun c hc =>
      of_decide_eq_true (List.all_eq_true.mp hascii c hc)]
    decide
  rw [isSensitive, hnormalize]
  decide

theorem str_text {name : LogKey α} (htext : ∃ t, name = .text t) :
    .text (name.str python) = name := by
  obtain ⟨t, rfl⟩ := htext
  rfl

/-- No item of a mapping of texts is lost. -/
theorem dictItems_redactItems (htexts : ∀ item ∈ items, ∃ t, item.1 = .text t)
    (hnodup : (items.map Prod.fst).Nodup) :
    dictItems (Keyed.ofItems (redactItems python items)) =
      items.map fun item => (item.1, redactValue python (item.1.str python) item.2) := by
  have hkeys : ((redactItems python items).map Prod.fst).Nodup := by
    refine List.Nodup.of_map (LogKey.text : Text → LogKey α) ?_
    rw [redactItems_eq, List.map_map, List.map_map]
    refine (List.map_congr_left fun item hitem => ?_) ▸ hnodup
    exact (str_text (htexts item hitem)).symm
  rw [dictItems, Keyed.values_ofItems hkeys, redactItems_eq, List.map_map]
  exact List.map_congr_left fun item hitem => Prod.ext (str_text (htexts item hitem)) rfl

/-- **What is kept of a value** that no sensitive key hides. -/
theorem keepsLayer_redactValue (hkey : isSensitive python key = false)
    (hvalue : IsStringKeyed value) : KeepsLayer value (redactValue python key value) := by
  cases value with
  | text t =>
    rw [redactValue_text hkey]
    exact .text t
  | other object =>
    rw [redactValue_other hkey]
    exact .other object
  | sequence kind children =>
    rw [redactValue_sequence hkey]
    exact .sequence kind children _ (List.length_map _)
  | mapping kind items =>
    obtain ⟨htexts, hnodup, -⟩ := hvalue
    rw [redactValue_mapping hkey, dictItems_redactItems htexts hnodup]
    refine .mapping kind items _ ?_
    rw [List.map_map]
    rfl

/-- **A value without sensitive keys is only converted.** -/
theorem redactValue_eq_convert (hkey : isSensitive python key = false)
    (hvalue : IsStringKeyed value) (hclear : IsClear python value) :
    redactValue python key value = convert python value := by
  induction value using LogValue.induction generalizing key with
  | htext t => rw [redactValue_text hkey, convert]
  | hother object => rw [redactValue_other hkey, convert]
  | hsequence kind children ih =>
    have hchildren := childrenStringKeyed_iff.mp hvalue
    have hclears := childrenClear_iff.mp hclear
    rw [redactValue_sequence hkey, convert, convertChildren_eq]
    refine congrArg _ (List.map_congr_left fun child hmem => ?_)
    exact ih child hmem (isSensitive_item python) (hchildren child hmem) (hclears child hmem)
  | hmapping kind items ih =>
    obtain ⟨htexts, hnodup, hitems⟩ := hvalue
    rw [itemsStringKeyed_iff] at hitems
    have hclears := itemsClear_iff.mp hclear
    rw [redactValue_mapping hkey, dictItems_redactItems htexts hnodup, convert, convertItems_eq]
    refine congrArg _ (List.map_congr_left fun item hmem => ?_)
    obtain ⟨hfield, hclear⟩ := hclears item hmem
    exact Prod.ext (str_text (htexts item hmem)).symm
      (ih item hmem hfield (hitems item hmem) hclear)

theorem isText_iff {name : LogKey α} {t : Text} : name.isText t = true ↔ name = .text t := by
  cases name with
  | text t' => rw [LogKey.isText, decide_eq_true_eq, LogKey.text.injEq]
  | other object => exact iff_of_false Bool.false_ne_true nofun

theorem fieldAt_cons (step : LogStep) (path : List LogStep) :
    fieldAt key (step :: path) = fieldAt step.field path := by
  rcases path with _ | ⟨next, path⟩
  · rfl
  · rw [fieldAt, fieldAt, List.getLast?_cons_cons]
    rfl

/-- **What is at a place of a redacted value**: what is there, redacted, unless a sensitive key
leads there. -/
theorem lookup_redactValue (path : List LogStep) (hkey : isSensitive python key = false)
    (hpath : ∀ step ∈ path, isSensitive python step.field = false) (hvalue : IsStringKeyed value) :
    (redactValue python key value).lookup path =
      (value.lookup path).map (redactValue python (fieldAt key path)) := by
  induction path generalizing key value with
  | nil =>
    rw [LogValue.lookup, LogValue.lookup]
    rfl
  | cons step path ih =>
    obtain ⟨hstep, hrest⟩ := List.forall_mem_cons.mp hpath
    rw [fieldAt_cons]
    cases value with
    | text t =>
      rw [redactValue_text hkey, LogValue.lookup]
      rfl
    | other object =>
      rw [redactValue_other hkey, LogValue.lookup]
      rfl
    | sequence kind children =>
      rw [redactValue_sequence hkey]
      cases step with
      | key t => rfl
      | index i =>
        rw [LogValue.lookup, LogValue.lookup, List.getElem?_map]
        rcases hchild : children[i]? with _ | child
        · rfl
        · exact ih hstep hrest
            (childrenStringKeyed_iff.mp hvalue child (List.mem_of_getElem? hchild))
    | mapping kind items =>
      obtain ⟨htexts, hnodup, hitems⟩ := hvalue
      rw [redactValue_mapping hkey, dictItems_redactItems htexts hnodup]
      cases step with
      | index i => rfl
      | key t =>
        rw [LogValue.lookup, LogValue.lookup, List.find?_map]
        -- an item keeps its key
        change (Option.map _ (items.find? fun item => item.1.isText t)).bind _ = _
        generalize hfound : (items.find? fun item => item.1.isText t) = found
        rcases found with _ | item
        · rfl
        · have hname : item.1 = .text t := isText_iff.mp (List.find?_some hfound :)
          have hchild := itemsStringKeyed_iff.mp hitems item (List.mem_of_find?_eq_some hfound)
          rw [Option.map_some, Option.bind_some, Option.bind_some, hname]
          exact ih hstep hrest hchild

/-- A value in a value with texts as keys. -/
theorem isStringKeyed_lookup {path : List LogStep} {found : LogValue α}
    (hvalue : IsStringKeyed value) (h : value.lookup path = some found) : IsStringKeyed found := by
  induction path generalizing value with
  | nil =>
    rw [LogValue.lookup] at h
    obtain rfl := Option.some.inj h
    exact hvalue
  | cons step path ih =>
    cases value with
    | text t =>
      rw [LogValue.lookup] at h
      exact nomatch h
    | other object =>
      rw [LogValue.lookup] at h
      exact nomatch h
    | sequence kind children =>
      cases step with
      | key t => exact nomatch h
      | index i =>
        rw [LogValue.lookup] at h
        obtain ⟨child, hchild, hfound⟩ := Option.bind_eq_some_iff.mp h
        exact ih (childrenStringKeyed_iff.mp hvalue child (List.mem_of_getElem? hchild)) hfound
    | mapping kind items =>
      cases step with
      | index i => exact nomatch h
      | key t =>
        rw [LogValue.lookup] at h
        obtain ⟨item, hitem, hfound⟩ := Option.bind_eq_some_iff.mp h
        exact ih (itemsStringKeyed_iff.mp hvalue.2.2 item (List.mem_of_find?_eq_some hitem)) hfound

theorem isSensitive_fieldAt {path : List LogStep} (hkey : isSensitive python key = false)
    (hpath : ∀ step ∈ path, isSensitive python step.field = false) :
    isSensitive python (fieldAt key path) = false := by
  induction path generalizing key with
  | nil => exact hkey
  | cons step path ih =>
    obtain ⟨hstep, hrest⟩ := List.forall_mem_cons.mp hpath
    rw [fieldAt_cons]
    exact ih hstep hrest

end

/-! ### Log events -/

/-- The value at a place of an event. -/
def LogEvent.lookup (event : LogEvent α) (key : Text) (path : List LogStep) :
    Option (LogValue α) :=
  (event.get key).bind fun value => value.lookup path

/-- What a redacted event keeps. -/
structure Keeps (python : Stringification α) (event kept : LogEvent α) : Prop where
  keys : kept.keys = event.keys
  /-- A place that no sensitive key leads to. -/
  place : ∀ key path, isSensitive python key = false →
    (∀ step ∈ path, isSensitive python step.field = false) →
    ∀ value, event.lookup key path = some value →
      ∃ value', kept.lookup key path = some value' ∧ KeepsLayer value value' ∧
        (IsClear python value → value' = convert python value)
  /-- There are no other places. -/
  nothing : ∀ key path, isSensitive python key = false →
    (∀ step ∈ path, isSensitive python step.field = false) →
    event.lookup key path = none → kept.lookup key path = none

section

variable {python : Stringification α} {event : LogEvent α}

/-- What is at a place of a redacted event. -/
theorem lookup_redactSensitiveValues {key : Text} {path : List LogStep} (h : EventStringKeyed event)
    (hkey : isSensitive python key = false)
    (hpath : ∀ step ∈ path, isSensitive python step.field = false) :
    (redactSensitiveValues python event).lookup key path =
      (event.lookup key path).map (redactValue python (fieldAt key path)) := by
  rw [LogEvent.lookup, LogEvent.lookup, redactSensitiveValues, Mapping.get_updateAll]
  rcases hget : event.get key with _ | value
  · rfl
  · exact lookup_redactValue path hkey hpath (h _ (Mapping.get_eq_some.mp hget))

/-- **What an event keeps** when it is redacted: all that no sensitive key leads to. -/
theorem keeps_redactSensitiveValues (h : EventStringKeyed event) :
    Keeps python event (redactSensitiveValues python event) where
  keys := by
    rw [Mapping.keys, values_redactSensitiveValues, List.map_map]
    rfl
  place key path hkey hpath value hvalue := by
    have hclear := isSensitive_fieldAt hkey hpath
    obtain ⟨field, hget, hlookup⟩ := Option.bind_eq_some_iff.mp hvalue
    have hkeyed := isStringKeyed_lookup (h _ (Mapping.get_eq_some.mp hget)) hlookup
    refine ⟨redactValue python (fieldAt key path) value, ?_, keepsLayer_redactValue hclear hkeyed,
      redactValue_eq_convert hclear hkeyed⟩
    rw [lookup_redactSensitiveValues h hkey hpath, hvalue]
    rfl
  nothing key path hkey hpath hvalue := by
    rw [lookup_redactSensitiveValues h hkey hpath, hvalue]
    rfl

end

/-- **Redaction hides exactly what sensitive keys lead to**: of two events that differ only there
the same is left, and of everything else nothing is lost. -/
theorem redaction_hides_and_keeps (python : Stringification α) :
    (∀ event event' : LogEvent α, EventsAlike python event event' →
      redactSensitiveValues python event = redactSensitiveValues python event') ∧
    ∀ event : LogEvent α, EventStringKeyed event →
      Keeps python event (redactSensitiveValues python event) :=
  ⟨fun _ _ h => redactSensitiveValues_congr h, fun _ h => keeps_redactSensitiveValues h⟩

/-- Numbers, and texts of ASCII. -/
def plainStringification : Stringification ℤ where
  str n := (toString n).toList
  lower t := t.map Char.toLower
  lower_ascii _ _ := rfl

/-- An owner has logged in, and this is the token. -/
def loginEvent (token : LogValue ℤ) : LogEvent ℤ where
  values := [("event".toList, .text "login".toList),
    ("owner".toList, .mapping .dict
      [(.text "Access-Token".toList, token), (.text "count".toList, .other 3)])]
  nodup := by
    show ["event".toList, "owner".toList].Nodup
    decide

theorem redaction_hides_and_keeps_login :
    redactSensitiveValues plainStringification (loginEvent (.text "t0p".toList)) =
      redactSensitiveValues plainStringification (loginEvent (.sequence .tuple [.other 7])) ∧
    Keeps plainStringification (loginEvent (.text "t0p".toList))
      (redactSensitiveValues plainStringification (loginEvent (.text "t0p".toList))) := by
  have h := redaction_hides_and_keeps plainStringification
  refine ⟨h.1 _ _ ?_, h.2 _ ?_⟩
  · refine .cons ⟨rfl, .inr rfl⟩ (.cons ⟨rfl, .inr ⟨.dict, _, rfl, ?_⟩⟩ .nil)
    exact ⟨_, _, rfl, .inl (by decide), _, _, rfl, .inr rfl, rfl⟩
  · intro item hitem
    rw [← Keyed.mem_values, loginEvent, List.mem_cons, List.mem_singleton] at hitem
    obtain rfl | rfl := hitem
    · trivial
    · refine ⟨?_, by decide, trivial, trivial, trivial⟩
      simp

end Eeveetuber.Observability
