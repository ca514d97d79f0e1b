import Eeveetuber.Foundation.Text

/-!
# JSON as a text

The texts that `json.dumps(…, ensure_ascii=False, separators=(",", ":"))` writes: strings, with
the characters it escapes, and arrays and objects of texts already written.
-/

namespace Foundation

/-- The digits of a number below 256. -/
def hexDigits (n : ℕ) : Text := [Nat.digitChar (n / 16), Nat.digitChar (n % 16)]

/-- A character in a string of `json.dumps(…, ensure_ascii=False)`. -/
def jsonChar (c : Char) : Text :=
  if c = '"' then ['\\', '"']
  else if c = '\\' then ['\\', '\\']
  else if c = '\n' then ['\\', 'n']
  else if c = '\r' then ['\\', 'r']
  else if c = '\t' then ['\\', 't']
  else if c.toNat = 8 then ['\\', 'b']
  else if c.toNat = 12 then ['\\', 'f']
  else if c.toNat < 32 then ['\\', 'u', '0', '0'] ++ hexDigits c.toNat
  else [c]

def jsonString (t : Text) : Text := ['"'] ++ t.flatMap jsonChar ++ ['"']

/-- A string or `null`. -/
def jsonOptional : Option Text → Text
  | none => "null".toList
  | some t => jsonString t

/-- `true` or `false`. -/
def jsonBool : Bool → Text
  | true => "true".toList
  | false => "false".toList

/-- The digits of an integer. -/
def jsonInt (i : ℤ) : Text := (toString i).toList

/-- The members of an object or an array. -/
def jsonJoin (members : List Text) : Text := [','].intercalate members

def jsonArray (members : List Text) : Text := ['['] ++ jsonJoin members ++ [']']

def jsonObject (members : List (Text × Text)) : Text :=
  ['\x7b'] ++ jsonJoin (members.map fun m => jsonString m.1 ++ [':'] ++ m.2) ++ ['\x7d']

/-! ### Characters -/

/-- Most characters are written as they are. -/
theorem jsonChar_eq_singleton {c : Char} (h : 32 ≤ c.toNat) (hquote : c ≠ '"')
    (hbackslash : c ≠ '\\') : jsonChar c = [c] := by
  have hcontrol : ∀ d : Char, d.toNat < 32 → c ≠ d := fun d hd heq => absurd (heq ▸ h) hd.not_ge
  rw [jsonChar, if_neg hquote, if_neg hbackslash, if_neg (hcontrol _ (by decide)),
    if_neg (hcontrol _ (by decide)), if_neg (hcontrol _ (by decide)), if_neg (by omega),
    if_neg (by omega), if_neg (by omega)]

theorem mem_hexDigits {d : Char} {n : ℕ} (hn : n < 32) (h : d ∈ hexDigits n) :
    32 ≤ d.toNat ∧ d ≠ '<' := by
  have hall : ∀ m < 32, (hexDigits m).all (fun d => 32 ≤ d.toNat && d != '<') = true := by decide
  simpa using List.all_eq_true.mp (hall n hn) d h

/-- **A character is written as it is, or as an escape sequence**, which has no control
character and no sign `<`. -/
theorem jsonChar_cases (c : Char) : jsonChar c = [c] ∧ 32 ≤ c.toNat ∨
    ∃ t, jsonChar c = '\\' :: t ∧ ∀ d ∈ t, 32 ≤ d.toNat ∧ d ≠ '<' := by
  have hletter : ∀ e : Char, 32 ≤ e.toNat ∧ e ≠ '<' →
      ∀ d ∈ [e], 32 ≤ d.toNat ∧ d ≠ '<' := fun e he d hd => List.mem_singleton.mp hd ▸ he
  rw [jsonChar]
  by_cases hquote : c = '"'
  · rw [if_pos hquote]
    exact .inr ⟨_, rfl, hletter '"' (by decide)⟩
  rw [if_neg hquote]
  by_cases hbackslash : c = '\\'
  · rw [if_pos hbackslash]
    exact .inr ⟨_, rfl, hletter '\\' (by decide)⟩
  rw [if_neg hbackslash]
  by_cases hnewline : c = '\n'
  · rw [if_pos hnewline]
    exact .inr ⟨_, rfl, hletter 'n' (by decide)⟩
  rw [if_neg hnewline]
  by_cases hreturn : c = '\r'
  · rw [if_pos hreturn]
    exact .inr ⟨_, rfl, hletter 'r' (by decide)⟩
  rw [if_neg hreturn]
  by_cases htab : c = '\t'
  · rw [if_pos htab]
    exact .inr ⟨_, rfl, hletter 't' (by decide)⟩
  rw [if_neg htab]
  by_cases hbackspace : c.toNat = 8
  · rw [if_pos hbackspace]
    exact .inr ⟨_, rfl, hletter 'b' (by decide)⟩
  rw [if_neg hbackspace]
  by_cases hfeed : c.toNat = 12
  · rw [if_pos hfeed]
    exact .inr ⟨_, rfl, hletter 'f' (by decide)⟩
  rw [if_neg hfeed]
  by_cases hcontrol : c.toNat < 32
  · rw [if_pos hcontrol]
    refine .inr ⟨['u', '0', '0'] ++ hexDigits c.toNat, rfl, fun d hd => ?_⟩
    rcases List.mem_append.mp hd with hd | hd
    · have hzero := hletter '0' (by decide) d
      rw [List.mem_cons, List.mem_cons] at hd
      rcases hd with rfl | rfl | hd
      · decide
      · decide
      · exact hzero hd
    · exact mem_hexDigits hcontrol hd
  · rw [if_neg hcontrol]
    exact .inl ⟨rfl, not_lt.mp hcontrol⟩

/-- **What is written of a character** has no control character, and the sign `<` only as
itself. -/
theorem mem_jsonChar {c d : Char} (h : d ∈ jsonChar c) :
    32 ≤ d.toNat ∧ (d = '<' → c = '<') := by
  obtain ⟨hc, hle⟩ | ⟨t, ht, hescape⟩ := jsonChar_cases c
  · rw [hc, List.mem_singleton] at h
    exact ⟨h.symm ▸ hle, h.symm.trans⟩
  · rw [ht] at h
    rcases List.mem_cons.mp h with rfl | h
    · exact ⟨by decide, fun heq => absurd heq (by decide)⟩
    · exact ⟨(hescape d h).1, fun heq => absurd heq (hescape d h).2⟩

/-- A character is written as six characters at most. -/
theorem length_jsonChar_le (c : Char) : (jsonChar c).length ≤ 6 := by
  rw [jsonChar]
  repeat' split
  all_goals exact Nat.le_of_ble_eq_true rfl

/-- The sign `<` is in no number. -/
theorem sign_not_mem_toString (n : ℕ) : '<' ∉ (toString n).toList := by
  intro h
  rw [Nat.toString_eq_repr, Nat.toList_repr] at h
  exact absurd (Nat.isDigit_of_mem_toDigits (by omega) (by omega) h) (by decide)

theorem sign_not_mem_jsonInt (i : ℤ) : '<' ∉ jsonInt i := by
  rw [jsonInt, Int.toString_eq_repr]
  rcases i with n | n
  · exact sign_not_mem_toString n
  · rw [Int.repr, String.toList_append, List.mem_append, not_or]
    exact ⟨by decide, sign_not_mem_toString n.succ⟩

theorem sign_not_mem_jsonBool (b : Bool) : '<' ∉ jsonBool b := by
  cases b <;> decide

/-- A longer string is not written shorter. -/
theorem length_jsonString_le {s t : Text} (h : s <+: t) :
    (jsonString s).length ≤ (jsonString t).length := by
  obtain ⟨u, rfl⟩ := h
  simp only [jsonString, List.flatMap_append, List.length_append]
  omega

/-- The members, the first of which has no comma before it. -/
theorem jsonJoin_cons (member : Text) (members : List Text) :
    jsonJoin (member :: members) = member ++ members.flatMap fun m => [','] ++ m := by
  induction members generalizing member with
  | nil => simp [jsonJoin]
  | cons other members ih =>
    rw [List.flatMap_cons, List.append_assoc [','], ← ih other, jsonJoin,
      List.intercalate_cons_cons, List.append_assoc, jsonJoin]

end Foundation
