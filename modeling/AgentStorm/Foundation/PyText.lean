import AgentStorm.Foundation.Python
import AgentStorm.Foundation.Text

/-!
# `Foundation.PyText` — bytes and lines of Python texts

`decodeIgnore` is `bytes.decode("utf-8", errors="ignore")`: bytes that are no character are left out.
`translateNewlines` is what reading a file in text mode does to its line ends, `splitlines` is
`str.splitlines()`.
-/

namespace Python

open Text

/-! ## Bytes -/

/-- A text that can be encoded is that of a string. -/
theorem eq_text_of_encodable? {t : Text} {s : String} (h : encodable? t = some s) : t = text s := by
  obtain ⟨cs, hcs, rfl⟩ := Option.map_eq_some_iff.mp h
  rw [text, String.toList_ofList]
  clear h
  induction t generalizing cs with
  | nil =>
    cases hcs
    rfl
  | cons c t ih =>
    rw [List.mapM_cons] at hcs
    obtain ⟨d, hd, hcs⟩ := Option.bind_eq_some_iff.mp hcs
    obtain ⟨ds, hds, hcs⟩ := Option.bind_eq_some_iff.mp hcs
    cases hcs
    rw [List.map_cons, ← ih ds hds]
    split at hd
    · rename_i hvalid
      cases hd
      have htoNat : (Char.ofNat c.val).toNat = c.val := by
        rw [Char.toNat_ofNat, if_pos hvalid]
      rw [htoNat]
      congr 1
      exact Fin.ext (Nat.mod_eq_of_lt c.isLt).symm
    · cases hd

/-- The characters in bytes; `skip` bytes belong to the character before. -/
def decodeFrom : Nat → List UInt8 → List Char
  | _, [] => []
  | 0, b :: bs =>
    match (b :: bs).toByteArray.utf8DecodeChar? 0 with
    | some c => c :: decodeFrom (c.utf8Size - 1) bs
    | none => decodeFrom 0 bs
  | skip + 1, _ :: bs => decodeFrom skip bs

/-- `bs.decode("utf-8", errors="ignore")` -/
def decodeIgnore (bs : List UInt8) : String := String.ofList (decodeFrom 0 bs)

theorem length_decodeFrom_le (skip : Nat) (bs : List UInt8) :
    ((decodeFrom skip bs).flatMap String.utf8EncodeChar).length ≤ bs.length - skip := by
  induction bs generalizing skip with
  | nil => cases skip <;> exact Nat.zero_le _
  | cons b bs ih =>
    cases skip with
    | succ skip =>
      refine (ih skip).trans ?_
      rw [List.length_cons]
      omega
    | zero =>
      unfold decodeFrom
      split
      · rename_i c hc
        -- a character is decoded only where all its bytes are
        have hsize : c.utf8Size ≤ bs.length + 1 := by
          have hle := ByteArray.le_size_of_utf8DecodeChar?_eq_some hc
          rw [Nat.zero_add, List.size_toByteArray, List.length_cons] at hle
          exact hle
        have hpos := c.utf8Size_pos
        have hrest := ih (c.utf8Size - 1)
        rw [List.flatMap_cons, List.length_append, String.length_utf8EncodeChar, List.length_cons]
        omega
      · refine (ih 0).trans ?_
        rw [List.length_cons]
        omega

theorem length_decodeIgnore_le (bs : List UInt8) : (decodeIgnore bs).utf8ByteSize ≤ bs.length := by
  rw [utf8ByteSize_eq_length, bytes_eq_flatMap, decodeIgnore, String.toList_ofList]
  exact length_decodeFrom_le 0 bs

/-! ## Lines -/

/-- The characters at which `splitlines` ends a line. -/
def isLineBoundary (c : Char) : Bool :=
  c.toNat ∈ [0x0A, 0x0B, 0x0C, 0x0D, 0x1C, 0x1D, 0x1E, 0x85, 0x2028, 0x2029]

/-- The lines of a text, where `line` has been read of the current one. -/
def splitlinesFrom (line : List Char) : List Char → List (List Char)
  | [] => if line.isEmpty then [] else [line]
  | '\r' :: '\n' :: cs => line :: splitlinesFrom [] cs
  | c :: cs => if isLineBoundary c then line :: splitlinesFrom [] cs else splitlinesFrom (line ++ [c]) cs

def splitlines (cs : List Char) : List (List Char) := splitlinesFrom [] cs

/-- The universal newlines of a file that is read as text. -/
def translateNewlines : List Char → List Char
  | [] => []
  | '\r' :: '\n' :: cs => '\n' :: translateNewlines cs
  | c :: cs => (if c = '\r' then '\n' else c) :: translateNewlines cs

theorem translateNewlines_of_not_mem {cs : List Char} (h : '\r' ∉ cs) : translateNewlines cs = cs := by
  induction cs with
  | nil => rfl
  | cons c cs ih =>
    rw [List.mem_cons, not_or] at h
    rw [translateNewlines.eq_3 c cs fun _ hc => absurd hc.symm h.1, if_neg (Ne.symm h.1), ih h.2]

theorem splitlinesFrom_boundary {line cs : List Char} {c : Char} (hc : isLineBoundary c = true) (hcr : c ≠ '\r') :
    splitlinesFrom line (c :: cs) = line :: splitlinesFrom [] cs := by
  rw [splitlinesFrom.eq_3 line c cs fun _ h => absurd h hcr, if_pos hc]

/-- A line that has no boundary in it is read to its end. -/
theorem splitlinesFrom_append {line cs rest : List Char} (h : ∀ c ∈ cs, isLineBoundary c = false) :
    splitlinesFrom line (cs ++ rest) = splitlinesFrom (line ++ cs) rest := by
  induction cs generalizing line with
  | nil => rw [List.nil_append, List.append_nil]
  | cons c cs ih =>
    rw [List.forall_mem_cons] at h
    have hcr : c ≠ '\r' := by
      rintro rfl
      exact absurd h.1 (by decide)
    rw [List.cons_append, splitlinesFrom.eq_3 line c _ fun _ hc => absurd hc hcr, h.1, if_neg Bool.false_ne_true, ih h.2,
      List.append_assoc, List.singleton_append]

/-- A boundary ends the line it stands in, whatever the rest is. -/
theorem splitlines_cut {cs rest : List Char} {c : Char} (h : ∀ c ∈ cs, isLineBoundary c = false)
    (hc : isLineBoundary c = true) (hcr : c ≠ '\r') : splitlines (cs ++ c :: rest) = cs :: splitlines rest := by
  rw [splitlines, splitlinesFrom_append h, List.nil_append, splitlinesFrom_boundary hc hcr]
  rfl

theorem splitlines_single {cs : List Char} (hne : cs ≠ []) (h : ∀ c ∈ cs, isLineBoundary c = false) :
    splitlines cs = [cs] := by
  have hall := @splitlinesFrom_append [] cs [] h
  rw [List.append_nil, List.nil_append] at hall
  rw [splitlines, hall, splitlinesFrom, List.isEmpty_eq_false_iff.mpr hne]
  rfl

/-- `"\n".join(lines)` -/
def joinLines : List (List Char) → List Char
  | [] => []
  | [line] => line
  | line :: next :: lines => line ++ '\n' :: joinLines (next :: lines)

/-- A line that `splitlines` finds as it is. -/
def WholeLine (line : List Char) : Prop := line ≠ [] ∧ ∀ c ∈ line, isLineBoundary c = false

theorem splitlines_join_append {done rest : List (List Char)} (hdone : ∀ line ∈ done, WholeLine line) (hrest : rest ≠ []) :
    splitlines (joinLines (done ++ rest)) = done ++ splitlines (joinLines rest) := by
  induction done with
  | nil => rfl
  | cons line done ih =>
    rw [List.forall_mem_cons] at hdone
    have hcons : joinLines (line :: (done ++ rest)) = line ++ '\n' :: joinLines (done ++ rest) := by
      cases hlines : done ++ rest with
      | nil => exact absurd (List.append_eq_nil_iff.mp hlines).2 hrest
      | cons => rfl
    rw [List.cons_append, hcons, splitlines_cut hdone.1.2 (by decide) (by decide), ih hdone.2, List.cons_append]

/-- Joined lines are found again. -/
theorem splitlines_join {lines : List (List Char)} (h : ∀ line ∈ lines, WholeLine line) :
    splitlines (joinLines lines) = lines := by
  induction lines using List.reverseRecOn with
  | nil => rfl
  | append_singleton lines line =>
    rw [List.forall_mem_append] at h
    have hlast := h.2 line (List.mem_singleton_self _)
    rw [splitlines_join_append h.1 (List.cons_ne_nil _ _)]
    exact congrArg (lines ++ ·) (splitlines_single hlast.1 hlast.2)

/-- A boundary inside a line cuts it off, where all lines before it are whole. -/
theorem splitlines_join_cut {done rest : List (List Char)} {piece tail : List Char} {c : Char}
    (hdone : ∀ line ∈ done, WholeLine line) (hpiece : ∀ c ∈ piece, isLineBoundary c = false)
    (hc : isLineBoundary c = true) (hcr : c ≠ '\r') :
    ∃ more, splitlines (joinLines (done ++ (piece ++ c :: tail) :: rest)) = done ++ piece :: more := by
  rw [splitlines_join_append hdone (List.cons_ne_nil _ _)]
  cases rest with
  | nil =>
    refine ⟨splitlines tail, ?_⟩
    show done ++ splitlines (piece ++ c :: tail) = _
    rw [splitlines_cut hpiece hc hcr]
  | cons next rest =>
    refine ⟨splitlines (tail ++ '\n' :: joinLines (next :: rest)), ?_⟩
    show done ++ splitlines ((piece ++ c :: tail) ++ '\n' :: joinLines (next :: rest)) = _
    rw [List.append_assoc, List.cons_append, splitlines_cut hpiece hc hcr]

theorem not_mem_joinLines {c : Char} (hc : c ≠ '\n') {lines : List (List Char)} (h : ∀ line ∈ lines, c ∉ line) :
    c ∉ joinLines lines := by
  induction lines with
  | nil => exact List.not_mem_nil
  | cons line lines ih =>
    rw [List.forall_mem_cons] at h
    cases lines with
    | nil => exact h.1
    | cons =>
      simp only [joinLines, List.mem_append, List.mem_cons, not_or]
      exact ⟨h.1, hc, ih h.2⟩

end Python
