import AgentStorm.Results.Types

/-!
# `Results.Keys` — text checks, patterns and composed keys

The text predicates of `internal/results/service.go` and the keys the service composes. The patterns
are the regular expressions of the source, read as predicates on characters. A key identifies what it
was composed from: run ids contain no slash, query escaping emits none, and decimal numbers are
injective.
-/

namespace AgentStorm.Results

open Numeric Text

/-! ## Text checks -/

/-- `maxRequestBytes` of the HTTP handler. -/
def maxRequestBytes : Nat := 32 * 2 ^ 20

/-- Longer than `maxBytes`, or with a NUL, which no text column can hold. -/
def invalidText (value : String) (maxBytes : Nat) : Bool :=
  decide (maxBytes < value.utf8ByteSize) || value.toList.contains (Char.ofNat 0)

/-- `math.IsNaN` and `math.IsInf` both false. -/
def validMetric : Float64 → Bool
  | .finite _ => true
  | _ => false

/-! ## Patterns -/

variable {c : Char}

def lowerHex (c : Char) : Bool := c.isDigit || (decide ('a' ≤ c) && decide (c ≤ 'f'))

theorem lowerHex_range (h : lowerHex c = true) : 48 ≤ c.toNat ∧ c.toNat ≤ 102 := by
  simp only [lowerHex, Char.isDigit, Bool.or_eq_true, Bool.and_eq_true, decide_eq_true_eq, ge_iff_le,
    Char.le_def, UInt32.le_iff_toNat_le] at h
  have h48 : '0'.val.toNat = 48 := rfl
  have h57 : '9'.val.toNat = 57 := rfl
  have h97 : 'a'.val.toNat = 97 := rfl
  have h102 : 'f'.val.toNat = 102 := rfl
  have hc : c.toNat = c.val.toNat := rfl
  omega

theorem not_isSpace_of_lowerHex (h : lowerHex c = true) : isSpace c = false := by
  have hrange := lowerHex_range h
  exact not_isSpace (by omega) (by omega)

/-- `^[a-f0-9]{n}$` -/
def hexPattern (n : Nat) (s : String) : Bool := decide (s.toList.length = n) && s.toList.all lowerHex

def runIDChar (c : Char) : Bool := c.isAlphanum || c == '.' || c == '_' || c == '-'

/-- `^[A-Za-z0-9][A-Za-z0-9._-]{0,199}$` -/
def runIDPattern (s : String) : Bool :=
  match s.toList with
  | [] => false
  | c :: cs => c.isAlphanum && cs.all runIDChar && decide (cs.length ≤ 199)

/-- `^(0|[1-9][0-9]{0,17})(\.[0-9]{1,12})?$` -/
def pricePattern (s : String) : Bool :=
  match s.toList.splitOn '.' with
  | [whole] => wholePart whole
  | [whole, fraction] => wholePart whole && fraction.all Char.isDigit &&
      decide (1 ≤ fraction.length) && decide (fraction.length ≤ 12)
  | _ => false
where
  wholePart : List Char → Bool
    | [] => false
    | c :: cs => (c == '0' && cs.isEmpty) ||
        (c.isDigit && c != '0' && cs.all Char.isDigit && decide (cs.length ≤ 17))

/-- `[A-Za-z_][A-Za-z0-9_]*` -/
def identifierPattern : List Char → Bool
  | [] => false
  | c :: cs => (c.isAlpha || c == '_') && cs.all fun d => d.isAlphanum || d == '_'

/-- `^[A-Za-z_][A-Za-z0-9_]*(\.[A-Za-z_][A-Za-z0-9_]*)*:[A-Za-z_][A-Za-z0-9_]*$` -/
def entrypointPattern (s : String) : Bool :=
  match s.toList.splitOn ':' with
  | [path, function] => (path.splitOn '.').all identifierPattern && identifierPattern function
  | _ => false

/-- `^[a-z][a-z0-9_]{0,63}$` -/
def reasonCodePattern (s : String) : Bool :=
  match s.toList with
  | [] => false
  | c :: cs => c.isLower && cs.all (fun d => d.isLower || d.isDigit || d == '_') && decide (cs.length ≤ 63)

/-- `^sha256:[0-9a-f]{64}$` -/
def digestPattern (s : String) : Bool :=
  let digest := s.toList.drop 7
  decide (s.toList.take 7 = "sha256:".toList) && decide (digest.length = 64) && digest.all lowerHex

/-! ## Escaping -/

/-- The bytes `net/url` never escapes. -/
def unreserved (b : UInt8) : Bool :=
  let c := Char.ofNat b.toNat
  c.isAlphanum || c == '-' || c == '_' || c == '.' || c == '~'

/-- `url.QueryEscape`: a blank becomes `+`, every reserved byte is escaped. -/
def queryPlain (b : UInt8) : Option Char :=
  if unreserved b then some (Char.ofNat b.toNat) else if b = 32 then some '+' else none

def queryEscape (s : String) : String := String.ofList (percentEncode queryPlain (bytes s))

/-- `url.PathEscape`: a path segment may also keep `$`, `&`, `+`, `:`, `=` and `@`. -/
def pathPlain (b : UInt8) : Option Char :=
  let c := Char.ofNat b.toNat
  if unreserved b || c == '$' || c == '&' || c == '+' || c == ':' || c == '=' || c == '@' then some c else none

def pathEscape (s : String) : String := String.ofList (percentEncode pathPlain (bytes s))

/-! ## Keys -/

def registrationKey (runID : String) : String := "run/" ++ runID

def terminalKey (runID : String) (status : RunStatus) : String :=
  "run/" ++ runID ++ "/terminal/" ++ status.text

def shardKey (runID : String) (shardIndex : Int) : String :=
  "run/" ++ runID ++ "/shard/" ++ toString shardIndex

def caseKey (runID caseID : String) (iteration : Int) : String :=
  "run/" ++ runID ++ "/case/" ++ queryEscape caseID ++ "/iteration/" ++ toString iteration

def objectKey (runID : String) (shardIndex : Int) (payloadHash : String) : String :=
  "runs/" ++ pathEscape runID ++ "/shards/" ++ toString shardIndex ++ "/" ++ payloadHash ++ ".json.gz"

/-! ## Keys identify what they name -/

theorem slash_not_mem_of_runIDPattern {runID : String} (h : runIDPattern runID = true) :
    '/' ∉ runID.toList := by
  unfold runIDPattern at h
  intro hmem
  split at h
  · exact Bool.noConfusion h
  · rename_i c cs hcs
    simp only [Bool.and_eq_true, List.all_eq_true] at h
    rw [hcs, List.mem_cons] at hmem
    rcases hmem with rfl | hmem
    · exact absurd h.1.1 (by decide)
    · exact absurd (h.1.2 _ hmem) (by decide)

private theorem charOfByte_inj {a b : UInt8} (h : Char.ofNat a.toNat = Char.ofNat b.toNat) : a = b := by
  have hback : ∀ d : UInt8, (Char.ofNat d.toNat).toNat = d.toNat := by
    intro d
    have hd : d.toNat < 256 := d.toNat_lt_size
    rw [Char.toNat_ofNat, if_pos (Or.inl (by omega))]
  have heq := congrArg Char.toNat h
  rw [hback a, hback b] at heq
  exact UInt8.toNat_inj.mp heq

/-- A byte that stays is an unreserved one, or the blank that became `+`. -/
theorem queryPlain_eq_some {b : UInt8} (h : queryPlain b = some c) :
    (unreserved b = true ∧ Char.ofNat b.toNat = c) ∨ (b = 32 ∧ c = '+') := by
  unfold queryPlain at h
  split at h
  · rename_i hu
    exact .inl ⟨hu, Option.some.inj h⟩
  · split at h
    · rename_i hb
      exact .inr ⟨hb, (Option.some.inj h).symm⟩
    · cases h

theorem queryPlain_ne {b : UInt8} (hplus : c ≠ '+')
    (hc : (c.isAlphanum || c == '-' || c == '_' || c == '.' || c == '~') = false) :
    queryPlain b ≠ some c := by
  intro h
  rcases queryPlain_eq_some h with ⟨hu, rfl⟩ | ⟨-, rfl⟩
  · have hu' : (Char.ofNat b.toNat).isAlphanum || Char.ofNat b.toNat == '-' || Char.ofNat b.toNat == '_' ||
        Char.ofNat b.toNat == '.' || Char.ofNat b.toNat == '~' := hu
    rw [hc] at hu'
    exact Bool.noConfusion hu'
  · exact hplus rfl

private theorem queryPlain_inj (a b : UInt8) (c : Char) (ha : queryPlain a = some c)
    (hb : queryPlain b = some c) : a = b := by
  have hplus : ∀ d : UInt8, unreserved d = true → Char.ofNat d.toNat ≠ '+' := by
    intro d hd heq
    unfold unreserved at hd
    rw [heq] at hd
    exact absurd hd (by decide)
  rcases queryPlain_eq_some ha with ⟨hau, hac⟩ | ⟨rfl, hac⟩
  · rcases queryPlain_eq_some hb with ⟨-, hbc⟩ | ⟨-, hbc⟩
    · exact charOfByte_inj (hac.trans hbc.symm)
    · exact absurd (hac.trans hbc) (hplus a hau)
  · rcases queryPlain_eq_some hb with ⟨hbu, hbc⟩ | ⟨rfl, -⟩
    · exact absurd (hbc.trans hac) (hplus b hbu)
    · rfl

theorem queryEscape_injective : Function.Injective queryEscape := by
  intro s t h
  have hlist := String.ofList_injective h
  exact bytes_injective
    (percentEncode_injective (fun _ => queryPlain_ne (by decide) (by decide)) queryPlain_inj hlist)

theorem slash_not_mem_queryEscape (s : String) : '/' ∉ (queryEscape s).toList := by
  unfold queryEscape
  rw [String.toList_ofList]
  exact not_mem_percentEncode (fun _ => queryPlain_ne (by decide) (by decide)) (by decide) (by decide) _

theorem registrationKey_injective : Function.Injective registrationKey := by
  intro a b h
  have hlist := congrArg String.toList h
  simp only [registrationKey, String.toList_append] at hlist
  exact String.toList_inj.mp (List.append_cancel_left hlist)

theorem toString_int_injective {i j : Int} (h : toString i = toString j) : i = j := Int.repr_injective h

/-- **A shard key names one shard of one run.** -/
theorem shardKey_inj {r r' : String} {i i' : Int} (hr : runIDPattern r = true)
    (hr' : runIDPattern r' = true) (h : shardKey r i = shardKey r' i') : r = r' ∧ i = i' := by
  have hlist := congrArg String.toList h
  simp only [shardKey, String.toList_append, List.append_assoc] at hlist
  obtain ⟨hid, htail⟩ := append_mark_inj (slash_not_mem_of_runIDPattern hr)
    (slash_not_mem_of_runIDPattern hr') (List.append_cancel_left hlist)
  have hnum : "shard/".toList ++ (toString i).toList = "shard/".toList ++ (toString i').toList := htail
  exact ⟨String.toList_inj.mp hid, toString_int_injective (String.toList_inj.mp (List.append_cancel_left hnum))⟩

/-- **A case key names one iteration of one case of one run.** -/
theorem caseKey_inj {r r' c c' : String} {n n' : Int} (hr : runIDPattern r = true)
    (hr' : runIDPattern r' = true) (h : caseKey r c n = caseKey r' c' n') : r = r' ∧ c = c' ∧ n = n' := by
  have hlist := congrArg String.toList h
  simp only [caseKey, String.toList_append, List.append_assoc] at hlist
  obtain ⟨hid, htail⟩ := append_mark_inj (slash_not_mem_of_runIDPattern hr)
    (slash_not_mem_of_runIDPattern hr') (List.append_cancel_left hlist)
  have htail' : "case/".toList ++ ((queryEscape c).toList ++ '/' :: ("iteration/".toList ++ (toString n).toList)) =
      "case/".toList ++ ((queryEscape c').toList ++ '/' :: ("iteration/".toList ++ (toString n').toList)) := htail
  obtain ⟨hcase, hnum⟩ := append_mark_inj (slash_not_mem_queryEscape c) (slash_not_mem_queryEscape c')
    (List.append_cancel_left htail')
  exact ⟨String.toList_inj.mp hid, queryEscape_injective (String.toList_inj.mp hcase),
    toString_int_injective (String.toList_inj.mp (List.append_cancel_left hnum))⟩

theorem slash_not_mem_pathEscape (s : String) : '/' ∉ (pathEscape s).toList := by
  unfold pathEscape
  rw [String.toList_ofList]
  refine not_mem_percentEncode ?_ (by decide) (by decide) _
  intro b h
  dsimp only [pathPlain] at h
  split at h
  · rename_i hplain
    unfold unreserved at hplain
    simp only [Option.some.injEq] at h
    simp only [h] at hplain
    exact absurd hplain (by decide)
  · cases h

theorem slash_not_mem_int (i : Int) : '/' ∉ (toString i).toList := by
  cases i with
  | ofNat => exact not_mem_repr (by decide)
  | negSucc n =>
    show '/' ∉ ("-" ++ (n + 1).repr).toList
    rw [String.toList_append, List.mem_append, not_or]
    exact ⟨by decide, not_mem_repr (by decide)⟩

/-- **An object key names one content.** -/
theorem objectKey_inj_hash {r r' h h' : String} {i i' : Int}
    (heq : objectKey r i h = objectKey r' i' h') : h = h' := by
  have hlist := congrArg String.toList heq
  simp only [objectKey, String.toList_append, List.append_assoc] at hlist
  obtain ⟨-, htail⟩ := append_mark_inj (slash_not_mem_pathEscape r) (slash_not_mem_pathEscape r')
    (List.append_cancel_left hlist)
  have htail' : "shards/".toList ++ ((toString i).toList ++ '/' :: (h.toList ++ ".json.gz".toList)) =
      "shards/".toList ++ ((toString i').toList ++ '/' :: (h'.toList ++ ".json.gz".toList)) := htail
  obtain ⟨-, hhash⟩ := append_mark_inj (slash_not_mem_int i) (slash_not_mem_int i')
    (List.append_cancel_left htail')
  exact String.toList_inj.mp (List.append_cancel_right hhash)

end AgentStorm.Results
