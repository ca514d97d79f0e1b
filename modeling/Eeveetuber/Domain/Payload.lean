import Mathlib.Data.Rat.Defs
import Eeveetuber.Foundation.Checks
import Eeveetuber.Foundation.Text

/-!
# Payloads

The payload of an event is a JSON value that nothing can change: where it came in as lists and
dictionaries, it is kept as tuples and as read-only views of dictionaries. What is written out is
thawed again.

Both go over the whole value. `Eeveetuber.IsFrozen` says what a frozen value is, and
`Eeveetuber.asJson` what a value is with lists and tuples identified; then

* `Eeveetuber.freezeJson_of_isFrozen`: **freezing what is frozen changes nothing**;
* `Eeveetuber.thawJson_of_freezeJson`: **thawing gives back what was frozen**;
* `Eeveetuber.freezeJson_thawJson`: **what is thawed freezes to what it was**.
-/

namespace Eeveetuber

open Foundation

/-- A float. Zeros of either sign are one number. -/
inductive PyFloat where
  | finite (x : ℚ)
  | infinite (negative : Bool)
  | nan
deriving DecidableEq

inductive SequenceKind where
  | list
  | tuple
  /-- Another sequence, that is not text or bytes. -/
  | other
deriving DecidableEq

inductive MappingKind where
  | dict
  /-- A read-only view, `MappingProxyType`. -/
  | mappingProxy
  /-- Another mapping. -/
  | other
deriving DecidableEq

/-- An object that may be meant as a JSON value. -/
inductive PyObject where
  | none
  | str (t : Text)
  | bool (b : Bool)
  | int (n : ℤ)
  | float (x : PyFloat)
  | sequence (kind : SequenceKind) (children : List PyObject)
  /-- The items are in the order of the mapping, each key once. -/
  | mapping (kind : MappingKind) (items : List (PyObject × PyObject))
  /-- An object of another type, of this name. -/
  | other (typeName : Text)

/-- `type(value).__name__`, for a key. -/
def PyObject.typeName : PyObject → Text
  | none => "NoneType".toList
  | str _ => "str".toList
  | bool _ => "bool".toList
  | int _ => "int".toList
  | float _ => "float".toList
  | sequence .list _ => "list".toList
  | sequence .tuple _ => "tuple".toList
  | sequence .other _ => "sequence".toList
  | mapping .dict _ => "dict".toList
  | mapping .mappingProxy _ => "mappingproxy".toList
  | mapping .other _ => "mapping".toList
  | other name => name

/-- What a boundary raises. -/
inductive BoundaryError where
  | typeError (text : Text)
  | valueError (text : Text)
  | keyError (key : Text)
deriving DecidableEq

/-! ### Freezing and thawing -/

mutual

/-- `_freeze_json`. -/
def freezeJson (path : Text) : PyObject → Except BoundaryError PyObject
  | .none => .ok .none
  | .str t => .ok (.str t)
  | .bool b => .ok (.bool b)
  | .int n => .ok (.int n)
  | .float (.finite x) => .ok (.float (.finite x))
  | .float _ => .error (.valueError (path ++ " contains a non-finite float".toList))
  | .mapping _ items => do return .mapping .mappingProxy (← freezeItems path items)
  | .sequence _ children => do return .sequence .tuple (← freezeChildren path 0 children)
  | .other name => .error (.typeError (path ++ " is not JSON-compatible: ".toList ++ name))

/-- The children of a sequence, from one of them on. -/
def freezeChildren (path : Text) (index : ℕ) :
    List PyObject → Except BoundaryError (List PyObject)
  | [] => .ok []
  | child :: children => do
    let frozen ← freezeJson (path ++ '[' :: Nat.toDigits 10 index ++ [']']) child
    let rest ← freezeChildren path (index + 1) children
    return frozen :: rest

/-- The items of a mapping. -/
def freezeItems (path : Text) :
    List (PyObject × PyObject) → Except BoundaryError (List (PyObject × PyObject))
  | [] => .ok []
  | (.str key, child) :: items => do
    let frozen ← freezeJson (path ++ '.' :: key) child
    let rest ← freezeItems path items
    return (.str key, frozen) :: rest
  | (key, _) :: _ =>
    .error (.typeError (path ++ " keys must be strings, got ".toList ++ key.typeName))

end

mutual

/-- `_thaw_json`. -/
def thawJson : PyObject → PyObject
  | .mapping _ items => .mapping .dict (thawItems items)
  | .sequence .tuple children => .sequence .list (thawChildren children)
  | value => value

def thawChildren : List PyObject → List PyObject
  | [] => []
  | child :: children => thawJson child :: thawChildren children

def thawItems : List (PyObject × PyObject) → List (PyObject × PyObject)
  | [] => []
  | (key, child) :: items => (key, thawJson child) :: thawItems items

end

/-! ### JSON values -/

section Kinds

variable (sequences : SequenceKind → Prop) (mappings : MappingKind → Prop)

mutual

/-- A JSON value, of such sequences and mappings. -/
def IsJsonOf : PyObject → Prop
  | .float (.finite _) => True
  | .float _ => False
  | .sequence kind children => sequences kind ∧ AreJsonOf children
  | .mapping kind items => mappings kind ∧ ItemsJsonOf items
  | .other _ => False
  | _ => True

def AreJsonOf : List PyObject → Prop
  | [] => True
  | child :: children => IsJsonOf child ∧ AreJsonOf children

def ItemsJsonOf : List (PyObject × PyObject) → Prop
  | [] => True
  | (.str _, child) :: items => IsJsonOf child ∧ ItemsJsonOf items
  | _ => False

end

end Kinds

/-- A JSON value, of lists and dictionaries. -/
abbrev IsJson (value : PyObject) : Prop := IsJsonOf (· = .list) (· = .dict) value

/-- A frozen JSON value, of tuples and read-only views. -/
abbrev IsFrozen (value : PyObject) : Prop := IsJsonOf (· = .tuple) (· = .mappingProxy) value

/-- What can be frozen. -/
abbrev IsJsonLike (value : PyObject) : Prop := IsJsonOf (fun _ => True) (fun _ => True) value

section Rebuild

variable (sequence : SequenceKind) (mapping : MappingKind)

mutual

/-- A value with all its sequences of one kind, and its mappings. -/
def rebuild : PyObject → PyObject
  | .sequence _ children => .sequence sequence (rebuildChildren children)
  | .mapping _ items => .mapping mapping (rebuildItems items)
  | value => value

def rebuildChildren : List PyObject → List PyObject
  | [] => []
  | child :: children => rebuild child :: rebuildChildren children

def rebuildItems : List (PyObject × PyObject) → List (PyObject × PyObject)
  | [] => []
  | (key, child) :: items => (key, rebuild child) :: rebuildItems items

end

end Rebuild

/-- A value with lists and tuples identified, and dictionaries and views of them. -/
abbrev asJson : PyObject → PyObject := rebuild .list .dict

/-- A value with its sequences as tuples and its mappings as read-only views. -/
abbrev asFrozen : PyObject → PyObject := rebuild .tuple .mappingProxy

section

variable {sequences sequences' : SequenceKind → Prop} {mappings mappings' : MappingKind → Prop}
  {sequence sequence' : SequenceKind} {mapping mapping' : MappingKind} {value frozen : PyObject}
  {children : List PyObject} {items : List (PyObject × PyObject)} {path : Text}

/-- **Induction over a value**: over the children of its sequences and the values of its
mappings. -/
theorem PyObject.induction {P : PyObject → Prop} (hnone : P .none) (hstr : ∀ t, P (.str t))
    (hbool : ∀ b, P (.bool b)) (hint : ∀ n, P (.int n)) (hfloat : ∀ x, P (.float x))
    (hsequence : ∀ kind children, (∀ child ∈ children, P child) → P (.sequence kind children))
    (hmapping : ∀ kind items, (∀ item ∈ items, P item.2) → P (.mapping kind items))
    (hother : ∀ name, P (.other name)) (value : PyObject) : P value := by
  refine @PyObject.rec P (fun children => ∀ child ∈ children, P child)
    (fun items => ∀ item ∈ items, P item.2) (fun item => P item.2)
    hnone hstr hbool hint hfloat hsequence hmapping hother ?_ ?_ ?_ ?_ ?_ value
  · exact fun child h => absurd h List.not_mem_nil
  · exact fun _ _ hchild hchildren => List.forall_mem_cons.mpr ⟨hchild, hchildren⟩
  · exact fun item h => absurd h List.not_mem_nil
  · exact fun _ _ hitem hitems => List.forall_mem_cons.mpr ⟨hitem, hitems⟩
  · exact fun _ _ _ hchild => hchild

theorem areJsonOf_iff : AreJsonOf sequences mappings children ↔
    ∀ child ∈ children, IsJsonOf sequences mappings child := by
  induction children with
  | nil => simp [AreJsonOf]
  | cons child children ih => rw [AreJsonOf, List.forall_mem_cons, ih]

theorem itemsJsonOf_iff : ItemsJsonOf sequences mappings items ↔
    ∀ item ∈ items, (∃ key, item.1 = .str key) ∧ IsJsonOf sequences mappings item.2 := by
  induction items with
  | nil => simp [ItemsJsonOf]
  | cons item items ih =>
    obtain ⟨key, child⟩ := item
    rw [List.forall_mem_cons, ← ih]
    cases key <;> simp [ItemsJsonOf]

theorem rebuildChildren_eq : rebuildChildren sequence mapping children =
    children.map (rebuild sequence mapping) := by
  induction children with
  | nil => rfl
  | cons child children ih => rw [rebuildChildren, List.map_cons, ih]

theorem rebuildItems_eq : rebuildItems sequence mapping items =
    items.map fun item => (item.1, rebuild sequence mapping item.2) := by
  induction items with
  | nil => rfl
  | cons item items ih => rw [rebuildItems, List.map_cons, ih]

theorem thawChildren_eq : thawChildren children = children.map thawJson := by
  induction children with
  | nil => rfl
  | cons child children ih => rw [thawChildren, List.map_cons, ih]

theorem thawItems_eq : thawItems items = items.map fun item => (item.1, thawJson item.2) := by
  induction items with
  | nil => rfl
  | cons item items ih => rw [thawItems, List.map_cons, ih]

theorem IsJsonOf.imp (hs : ∀ kind, sequences kind → sequences' kind)
    (hm : ∀ kind, mappings kind → mappings' kind) (h : IsJsonOf sequences mappings value) :
    IsJsonOf sequences' mappings' value := by
  induction value using PyObject.induction with
  | hsequence kind children ih =>
    obtain ⟨hkind, hchildren⟩ := h
    rw [areJsonOf_iff] at hchildren
    exact ⟨hs kind hkind, areJsonOf_iff.mpr fun child hmem => ih child hmem (hchildren child hmem)⟩
  | hmapping kind items ih =>
    obtain ⟨hkind, hitems⟩ := h
    rw [itemsJsonOf_iff] at hitems
    exact ⟨hm kind hkind, itemsJsonOf_iff.mpr fun item hmem =>
      ⟨(hitems item hmem).1, ih item hmem (hitems item hmem).2⟩⟩
  | hfloat x => cases x <;> exact h
  | _ => exact h

/-- Anything frozen can be frozen, and any JSON value. -/
theorem IsJsonOf.jsonLike (h : IsJsonOf sequences mappings value) : IsJsonLike value :=
  h.imp (fun _ _ => trivial) fun _ _ => trivial

/-- Only the last time counts that a value is rebuilt. -/
theorem rebuild_rebuild :
    rebuild sequence mapping (rebuild sequence' mapping' value) =
      rebuild sequence mapping value := by
  induction value using PyObject.induction with
  | hsequence kind children ih =>
    rw [rebuild, rebuild, rebuild, rebuildChildren_eq, rebuildChildren_eq, rebuildChildren_eq,
      List.map_map]
    exact congrArg _ (List.map_congr_left ih)
  | hmapping kind items ih =>
    rw [rebuild, rebuild, rebuild, rebuildItems_eq, rebuildItems_eq, rebuildItems_eq, List.map_map]
    exact congrArg _ (List.map_congr_left fun item hmem => Prod.ext rfl (ih item hmem))
  | _ => rfl

/-- A value that is of these kinds already. -/
theorem rebuild_eq_self (h : IsJsonOf (· = sequence) (· = mapping) value) :
    rebuild sequence mapping value = value := by
  induction value using PyObject.induction with
  | hsequence kind children ih =>
    obtain ⟨rfl, hchildren⟩ := h
    rw [areJsonOf_iff] at hchildren
    rw [rebuild, rebuildChildren_eq]
    refine congrArg _ ((List.map_congr_left fun child hmem => ?_).trans (List.map_id children))
    exact ih child hmem (hchildren child hmem)
  | hmapping kind items ih =>
    obtain ⟨rfl, hitems⟩ := h
    rw [itemsJsonOf_iff] at hitems
    rw [rebuild, rebuildItems_eq]
    refine congrArg _ ((List.map_congr_left fun item hmem => ?_).trans (List.map_id items))
    exact Prod.ext rfl (ih item hmem (hitems item hmem).2)
  | _ => rfl

/-- **What a JSON value is rebuilt to** is one of these kinds. -/
theorem isJsonOf_rebuild (h : IsJsonLike value) :
    IsJsonOf (· = sequence) (· = mapping) (rebuild sequence mapping value) := by
  induction value using PyObject.induction with
  | hsequence kind children ih =>
    have hchildren := areJsonOf_iff.mp h.2
    rw [rebuild, rebuildChildren_eq]
    refine ⟨rfl, areJsonOf_iff.mpr fun child hmem => ?_⟩
    obtain ⟨child, hchild, rfl⟩ := List.mem_map.mp hmem
    exact ih child hchild (hchildren child hchild)
  | hmapping kind items ih =>
    have hitems := itemsJsonOf_iff.mp h.2
    rw [rebuild, rebuildItems_eq]
    refine ⟨rfl, itemsJsonOf_iff.mpr fun item hmem => ?_⟩
    obtain ⟨item, hitem, rfl⟩ := List.mem_map.mp hmem
    exact ⟨(hitems item hitem).1, ih item hitem (hitems item hitem).2⟩
  | hfloat x => cases x <;> exact h
  | _ => exact h

/-! ### Freezing -/

theorem freezeChildren_eq_ok (index : ℕ)
    (h : ∀ child ∈ children, ∀ path, freezeJson path child = .ok (asFrozen child)) :
    freezeChildren path index children = .ok (children.map asFrozen) := by
  induction children generalizing index with
  | nil => rfl
  | cons child children ih =>
    obtain ⟨hchild, hchildren⟩ := List.forall_mem_cons.mp h
    rw [freezeChildren, hchild, ih (index + 1) hchildren]
    rfl

theorem freezeItems_eq_ok
    (h : ∀ item ∈ items, (∃ key, item.1 = .str key) ∧
      ∀ path, freezeJson path item.2 = .ok (asFrozen item.2)) :
    freezeItems path items = .ok (items.map fun item => (item.1, asFrozen item.2)) := by
  induction items with
  | nil => rfl
  | cons item items ih =>
    obtain ⟨⟨⟨key, hkey⟩, hitem⟩, hitems⟩ := List.forall_mem_cons.mp h
    obtain ⟨first, child⟩ := item
    obtain rfl : first = .str key := hkey
    rw [freezeItems, hitem, ih hitems]
    rfl

/-- **What can be frozen is.** -/
theorem freezeJson_eq_ok (h : IsJsonLike value) (path : Text) :
    freezeJson path value = .ok (asFrozen value) := by
  induction value using PyObject.induction generalizing path with
  | hsequence kind children ih =>
    have hchildren := areJsonOf_iff.mp h.2
    rw [freezeJson, freezeChildren_eq_ok 0 fun child hmem => ih child hmem (hchildren child hmem),
      asFrozen, rebuild, rebuildChildren_eq]
    rfl
  | hmapping kind items ih =>
    have hitems := itemsJsonOf_iff.mp h.2
    rw [freezeJson, freezeItems_eq_ok fun item hmem =>
      ⟨(hitems item hmem).1, ih item hmem (hitems item hmem).2⟩, asFrozen, rebuild, rebuildItems_eq]
    rfl
  | hfloat x =>
    cases x with
    | finite x => rfl
    | infinite => exact h.elim
    | nan => exact h.elim
  | hother => exact h.elim
  | _ => rfl

theorem jsonLike_of_freezeChildren {index : ℕ} {frozen : List PyObject}
    (h : freezeChildren path index children = .ok frozen)
    (hjson : ∀ child ∈ children, ∀ path frozen, freezeJson path child = .ok frozen →
      IsJsonLike child) : ∀ child ∈ children, IsJsonLike child := by
  induction children generalizing index frozen with
  | nil => exact fun child h => absurd h List.not_mem_nil
  | cons child children ih =>
    obtain ⟨hchild, hchildren⟩ := List.forall_mem_cons.mp hjson
    rw [freezeChildren] at h
    obtain ⟨first, hfirst, h⟩ := except_bind_eq_ok.mp h
    obtain ⟨rest, hrest, -⟩ := except_bind_eq_ok.mp h
    exact List.forall_mem_cons.mpr ⟨hchild _ _ hfirst, ih hrest hchildren⟩

theorem jsonLike_of_freezeItems {frozen : List (PyObject × PyObject)}
    (h : freezeItems path items = .ok frozen)
    (hjson : ∀ item ∈ items, ∀ path frozen, freezeJson path item.2 = .ok frozen →
      IsJsonLike item.2) : ∀ item ∈ items, (∃ key, item.1 = .str key) ∧ IsJsonLike item.2 := by
  induction items generalizing frozen with
  | nil => exact fun item h => absurd h List.not_mem_nil
  | cons item items ih =>
    obtain ⟨hitem, hitems⟩ := List.forall_mem_cons.mp hjson
    obtain ⟨key, child⟩ := item
    cases key with
    | str key =>
      rw [freezeItems] at h
      obtain ⟨first, hfirst, h⟩ := except_bind_eq_ok.mp h
      obtain ⟨rest, hrest, -⟩ := except_bind_eq_ok.mp h
      exact List.forall_mem_cons.mpr ⟨⟨⟨key, rfl⟩, hitem _ _ hfirst⟩, ih hrest hitems⟩
    | _ => exact nomatch h

/-- **Only what can be frozen is frozen.** -/
theorem jsonLike_of_freezeJson (h : freezeJson path value = .ok frozen) : IsJsonLike value := by
  induction value using PyObject.induction generalizing path frozen with
  | hsequence kind children ih =>
    rw [freezeJson] at h
    obtain ⟨rest, hrest, -⟩ := except_bind_eq_ok.mp h
    refine ⟨trivial, areJsonOf_iff.mpr ?_⟩
    exact jsonLike_of_freezeChildren hrest fun child hmem _ _ => ih child hmem
  | hmapping kind items ih =>
    rw [freezeJson] at h
    obtain ⟨rest, hrest, -⟩ := except_bind_eq_ok.mp h
    refine ⟨trivial, itemsJsonOf_iff.mpr ?_⟩
    exact jsonLike_of_freezeItems hrest fun item hmem _ _ => ih item hmem
  | hfloat x =>
    cases x with
    | finite x => trivial
    | infinite => exact nomatch h
    | nan => exact nomatch h
  | hother => exact nomatch h
  | _ => trivial

/-- What a value freezes to. -/
theorem freezeJson_eq_ok_iff : freezeJson path value = .ok frozen ↔
    IsJsonLike value ∧ frozen = asFrozen value := by
  constructor
  · intro h
    have hjson := jsonLike_of_freezeJson h
    exact ⟨hjson, Except.ok.inj (h.symm.trans (freezeJson_eq_ok hjson path))⟩
  · rintro ⟨hjson, rfl⟩
    exact freezeJson_eq_ok hjson path

/-- **Freezing what is frozen changes nothing.** -/
theorem freezeJson_of_isFrozen (h : IsFrozen value) (path : Text) :
    freezeJson path value = .ok value :=
  freezeJson_eq_ok_iff.mpr ⟨h.jsonLike, (rebuild_eq_self h).symm⟩

theorem isFrozen_of_freezeJson (h : freezeJson path value = .ok frozen) : IsFrozen frozen := by
  obtain ⟨hjson, rfl⟩ := freezeJson_eq_ok_iff.mp h
  exact isJsonOf_rebuild hjson

/-! ### Thawing -/

/-- Thawing makes lists of tuples, and dictionaries. -/
theorem thawJson_of_isFrozen (h : IsFrozen value) : thawJson value = asJson value := by
  induction value using PyObject.induction with
  | hsequence kind children ih =>
    obtain ⟨rfl, hchildren⟩ := h
    rw [areJsonOf_iff] at hchildren
    rw [thawJson, thawChildren_eq, asJson, rebuild, rebuildChildren_eq]
    exact congrArg _ (List.map_congr_left fun child hmem => ih child hmem (hchildren child hmem))
  | hmapping kind items ih =>
    obtain ⟨rfl, hitems⟩ := h
    rw [itemsJsonOf_iff] at hitems
    rw [thawJson, thawItems_eq, asJson, rebuild, rebuildItems_eq]
    refine congrArg _ (List.map_congr_left fun item hmem => ?_)
    exact Prod.ext rfl (ih item hmem (hitems item hmem).2)
  | _ => rfl

/-- **Thawing gives back what was frozen**, with lists and tuples identified. -/
theorem thawJson_of_freezeJson (h : freezeJson path value = .ok frozen) :
    thawJson frozen = asJson value := by
  rw [thawJson_of_isFrozen (isFrozen_of_freezeJson h), (freezeJson_eq_ok_iff.mp h).2]
  exact rebuild_rebuild

/-- **What is thawed freezes to what it was.** -/
theorem freezeJson_thawJson (h : IsFrozen value) (path : Text) :
    freezeJson path (thawJson value) = .ok value := by
  rw [thawJson_of_isFrozen h]
  refine freezeJson_eq_ok_iff.mpr ⟨(isJsonOf_rebuild h.jsonLike).jsonLike, ?_⟩
  exact (rebuild_rebuild.trans (rebuild_eq_self h)).symm

end

end Eeveetuber
