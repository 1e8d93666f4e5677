import AgentStorm.Foundation.Dict
import AgentStorm.Foundation.Python
import AgentStorm.Foundation.Text

/-!
# `Foundation.PyJson` — Python's `json` module on trees

A document is the tree of its values as they are written, repeated keys included. `collapse` is the
object that `json.loads` builds from it and `scannable` says when it builds one; `dumps` is
`json.dumps` with `ensure_ascii` and `allow_nan` off and no blanks between tokens.
-/

namespace Python

open Numeric

/-! ## Objects -/

/-- The truth value of an object. -/
def truthy : Value → Bool
  | .none => false
  | .bool b => b
  | .int n => decide (n ≠ 0)
  | .float x => decide (x ≠ .finite 0)
  | .negZero => false
  | .str s => !s.isEmpty
  | .list items => !items.isEmpty
  | .dict members => !members.isEmpty

/-- `c.isspace()`; a surrogate is no white space. -/
def isspace (c : CodePoint) : Bool := Text.isPySpace (Char.ofNat c.val)

/-- `s.strip()` -/
def strip (s : Text) : Text := Text.trim isspace s

theorem isspace_ofNat_toNat (c : Char) : isspace (Fin.ofNat 0x110000 c.toNat) = Text.isPySpace c := by
  rw [isspace, val_ofNat_toNat, Char.ofNat_toNat]

theorem any_isspace_text (s : String) : (text s).any isspace = s.toList.any Text.isPySpace := by
  rw [text, List.any_map]
  exact congrArg _ (funext isspace_ofNat_toNat)

theorem isEmpty_strip_text (s : String) : (strip (text s)).isEmpty = Text.pyBlank s := by
  rw [Bool.eq_iff_iff, List.isEmpty_iff, strip, Text.trim_eq_nil_iff, Text.pyBlank, List.all_eq_true, text]
  rw [List.forall_mem_map]
  simp only [isspace_ofNat_toNat]

theorem strip_text_of_forall_not {s : String} (h : ∀ c ∈ s.toList, Text.isPySpace c = false) :
    strip (text s) = text s := by
  refine Text.trim_of_forall_not fun c hc => ?_
  obtain ⟨d, hd, rfl⟩ := List.mem_map.mp hc
  rw [isspace_ofNat_toNat, h d hd]

def Value.isLeaf : Value → Bool
  | .list _ => false
  | .dict _ => false
  | _ => true

/-- What holds of a value if it holds of all that is inside holds of every value. -/
theorem Value.induction {motive : Value → Prop} (leaf : ∀ value, value.isLeaf = true → motive value)
    (list : ∀ items, (∀ item ∈ items, motive item) → motive (.list items))
    (dict : ∀ members, (∀ member ∈ members, motive member.2) → motive (.dict members)) (value : Value) : motive value := by
  refine @Value.rec motive (fun items => ∀ item ∈ items, motive item) (fun members => ∀ member ∈ members, motive member.2)
    (fun member => motive member.2) (leaf _ rfl) (fun _ => leaf _ rfl) (fun _ => leaf _ rfl) (fun _ => leaf _ rfl)
    (leaf _ rfl) (fun _ => leaf _ rfl) list dict ?_ ?_ ?_ ?_ (fun _ _ => id) value
  · exact List.forall_mem_nil _
  · exact fun _ _ hitem hitems => List.forall_mem_cons.mpr ⟨hitem, hitems⟩
  · exact List.forall_mem_nil _
  · exact fun _ _ hmember hmembers => List.forall_mem_cons.mpr ⟨hmember, hmembers⟩

/-! ## Reading -/

/-- `sys.get_int_max_str_digits()` -/
def maxStrDigits : Nat := 4300

mutual
/-- The scanner raises no error: no integer is too long and nothing is nested deeper than `depth`. -/
def scannable : Nat → Value → Bool
  | _, .int n => decide (n.natAbs < 10 ^ maxStrDigits)
  | 0, .list _ => false
  | depth + 1, .list items => scannableItems depth items
  | 0, .dict _ => false
  | depth + 1, .dict members => scannableMembers depth members
  | _, _ => true

def scannableItems : Nat → List Value → Bool
  | _, [] => true
  | depth, item :: items => scannable depth item && scannableItems depth items

def scannableMembers : Nat → List (Text × Value) → Bool
  | _, [] => true
  | depth, member :: members => scannable depth member.2 && scannableMembers depth members
end

mutual
/-- The object of a document: of a repeated key, the last value is kept. -/
def collapse : Value → Value
  | .list items => .list (collapseItems items)
  | .dict members => .dict (Dict.ofMembers (collapseMembers members))
  | value => value

def collapseItems : List Value → List Value
  | [] => []
  | item :: items => collapse item :: collapseItems items

def collapseMembers : List (Text × Value) → List (Text × Value)
  | [] => []
  | member :: members => (member.1, collapse member.2) :: collapseMembers members
end

/-- `json.loads`, or nothing if it raises. -/
def loads (depth : Nat) (document : Value) : Option Value :=
  if scannable depth document then some (collapse document) else none

theorem scannableMembers_iff {depth : Nat} {members : List (Text × Value)} :
    scannableMembers depth members = true ↔ ∀ member ∈ members, scannable depth member.2 = true := by
  induction members with
  | nil => simp [scannableMembers]
  | cons member members ih => simp [scannableMembers, ih]

theorem collapseItems_eq_map (items : List Value) : collapseItems items = items.map collapse := by
  induction items with
  | nil => rfl
  | cons item items ih => rw [collapseItems, ih, List.map_cons]

theorem collapseMembers_eq_map (members : List (Text × Value)) :
    collapseMembers members = members.map fun member => (member.1, collapse member.2) := by
  induction members with
  | nil => rfl
  | cons member members ih => rw [collapseMembers, ih, List.map_cons]

theorem collapse_list (items : List Value) : collapse (.list items) = .list (items.map collapse) := by
  rw [collapse, collapseItems_eq_map]

theorem collapse_dict (members : List (Text × Value)) :
    collapse (.dict members) = .dict (Dict.ofMembers (members.map fun member => (member.1, collapse member.2))) := by
  rw [collapse, collapseMembers_eq_map]

/-- A dict of which no key is repeated, and nothing to collapse inside, stays as it is. -/
theorem collapse_flat {members : List (Python.Text × Value)} (hkeys : (members.map Prod.fst).Nodup)
    (hmembers : members.map (fun member => (member.1, collapse member.2)) = members) :
    collapse (.dict members) = .dict members := by
  rw [collapse_dict, hmembers, Dict.ofMembers_of_nodup hkeys]

/-! ## Documents with optional entries -/

/-- The members of an object, where an entry without a value is left out. -/
def document (entries : List (String × Option Value)) : List (Text × Value) :=
  entries.flatMap fun entry => entry.2.toList.map fun value => (text entry.1, value)

theorem mem_document {entries : List (String × Option Value)} {member : Text × Value} :
    member ∈ document entries ↔ ∃ entry ∈ entries, entry.2 = some member.2 ∧ text entry.1 = member.1 := by
  obtain ⟨_, _⟩ := member
  simp [document, and_comm]

theorem nodup_document {entries : List (String × Option Value)} (h : (entries.map Prod.fst).Nodup) :
    ((document entries).map Prod.fst).Nodup := by
  induction entries with
  | nil => exact List.nodup_nil
  | cons entry entries ih =>
    rw [List.map_cons, List.nodup_cons] at h
    obtain ⟨_, value⟩ := entry
    cases value with
    | none => exact ih h.2
    | some =>
      refine List.nodup_cons.mpr ⟨fun hmem => h.1 ?_, ih h.2⟩
      obtain ⟨_, hmember, hname⟩ := List.mem_map.mp hmem
      obtain ⟨entry, hentry, -, hsame⟩ := mem_document.mp hmember
      exact List.mem_map.mpr ⟨entry, hentry, text_injective (hsame.trans hname)⟩

/-- The document keeps the values of its entries. -/
theorem get?_document {entries : List (String × Option Value)} (h : (entries.map Prod.fst).Nodup) (name : String) :
    get? (document entries) name = (entries.find? fun entry => entry.1 == name).bind (·.2) := by
  induction entries with
  | nil => rfl
  | cons entry entries ih =>
    rw [List.map_cons, List.nodup_cons] at h
    have hcons : document (entry :: entries) = document [entry] ++ document entries := by simp [document]
    rw [hcons, get?_append, ih h.2, List.find?_cons]
    obtain ⟨name', value⟩ := entry
    by_cases heq : name' = name
    · have hnot : (entries.find? fun entry => entry.1 == name) = none := by
        rw [List.find?_eq_none]
        intro entry hentry hname
        exact h.1 (List.mem_map.mpr ⟨entry, hentry, (of_decide_eq_true hname).trans heq.symm⟩)
      rw [hnot, beq_iff_eq.mpr heq]
      cases value with
      | none => rfl
      | some value => exact (get?_singleton name' value name).trans (if_pos heq)
    · have hnot : (name' == name) = false := beq_false_of_ne heq
      have hentry : get? (document [(name', value)]) name = none := by
        cases value with
        | none => rfl
        | some value => exact (get?_singleton name' value name).trans (if_neg heq)
      rw [hentry, hnot, Option.or_none]

theorem collapse_document {entries : List (String × Option Value)} (h : (entries.map Prod.fst).Nodup) :
    collapse (.dict (document entries)) = .dict (document (entries.map fun entry => (entry.1, entry.2.map collapse))) := by
  have hmap : (document entries).map (fun member => (member.1, collapse member.2)) =
      document (entries.map fun entry => (entry.1, entry.2.map collapse)) := by
    simp only [document, List.map_flatMap, List.flatMap_map, List.map_map, Option.toList_map]
    rfl
  rw [collapse_dict, hmap, Dict.ofMembers_of_nodup]
  refine nodup_document ?_
  rwa [List.map_map]

theorem scannable_document {depth : Nat} {entries : List (String × Option Value)} :
    scannable (depth + 1) (.dict (document entries)) = true ↔
      ∀ entry ∈ entries, ∀ value, entry.2 = some value → scannable depth value = true := by
  show scannableMembers depth (document entries) = true ↔ _
  rw [scannableMembers_iff]
  constructor
  · exact fun h entry hentry value hvalue => h (text entry.1, value) (mem_document.mpr ⟨entry, hentry, hvalue, rfl⟩)
  · intro h member hmember
    obtain ⟨entry, hentry, hvalue, -⟩ := mem_document.mp hmember
    exact h entry hentry _ hvalue

/-! ## Heights -/

mutual
/-- How many lists and dictionaries are around the innermost value. -/
def height : Value → Nat
  | .list items => heightItems items
  | .dict members => heightMembers members
  | _ => 0

def heightItems : List Value → Nat
  | [] => 0
  | item :: items => max (height item + 1) (heightItems items)

def heightMembers : List (Text × Value) → Nat
  | [] => 0
  | member :: members => max (height member.2 + 1) (heightMembers members)
end

theorem height_list_le {items : List Value} {n : Nat} :
    height (.list items) ≤ n ↔ ∀ item ∈ items, height item + 1 ≤ n := by
  show heightItems items ≤ n ↔ _
  induction items with
  | nil => simp [heightItems]
  | cons item items ih => rw [heightItems, max_le_iff, ih, List.forall_mem_cons]

theorem height_dict_le {members : List (Text × Value)} {n : Nat} :
    height (.dict members) ≤ n ↔ ∀ member ∈ members, height member.2 + 1 ≤ n := by
  show heightMembers members ≤ n ↔ _
  induction members with
  | nil => simp [heightMembers]
  | cons member members ih => rw [heightMembers, max_le_iff, ih, List.forall_mem_cons]

/-! ## Writing -/

/-- A text between quotes. -/
def quoted (s : Text) : Text := text "\"" ++ s.flatMap escaped ++ text "\""
where
  escaped (c : CodePoint) : Text :=
    if c.val = 34 then text "\\\""
    else if c.val = 92 then text "\\\\"
    else if c.val = 10 then text "\\n"
    else if c.val = 13 then text "\\r"
    else if c.val = 9 then text "\\t"
    else if c.val = 12 then text "\\f"
    else if c.val = 8 then text "\\b"
    else if c.val < 32 then text (String.ofList ['\\', 'u', '0', '0', hexDigit (c.val / 16), hexDigit (c.val % 16)])
    else [c]
  hexDigit (n : Nat) : Char := if n < 10 then Char.ofNat (48 + n) else Char.ofNat (87 + n)

mutual
/-- `json.dumps(value, ensure_ascii=False, allow_nan=False, separators=(",", ":"))`, or nothing if it raises. -/
def dumps (formatFloat : ℚ → String) : Value → Option Text
  | .none => some (text "null")
  | .bool b => some (text (if b then "true" else "false"))
  | .int n => some (text (toString n))
  | .float (.finite q) => some (text (formatFloat q))
  | .float _ => none
  | .negZero => some (text "-0.0")
  | .str s => some (quoted s)
  | .list items => do return text "[" ++ (text ",").intercalate (← dumpsItems formatFloat items) ++ text "]"
  | .dict members => do
      return text "\x7b" ++ (text ",").intercalate (← dumpsMembers formatFloat members) ++ text "\x7d"

def dumpsItems (formatFloat : ℚ → String) : List Value → Option (List Text)
  | [] => some []
  | item :: items => do return (← dumps formatFloat item) :: (← dumpsItems formatFloat items)

def dumpsMembers (formatFloat : ℚ → String) : List (Text × Value) → Option (List Text)
  | [] => some []
  | member :: members => do
      return (quoted member.1 ++ text ":" ++ (← dumps formatFloat member.2)) :: (← dumpsMembers formatFloat members)
end

end Python
