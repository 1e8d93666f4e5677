import Mathlib

/-!
# `Foundation.Text` — composed keys and percent-encoding

Keys are built by joining fields with marks. Such a key determines its fields when no field in front of
a mark contains the mark (`append_mark_inj`), and when each field's own rendering is injective, as that
of decimal numbers and percent-encoding are.
-/

namespace Text

/-! ## Marks -/

variable {α : Type} {cs : List α}

/-- Equal texts split at the same first mark. -/
theorem append_mark_inj {c : α} {as bs ds : List α} (ha : c ∉ as) (hb : c ∉ bs)
    (h : as ++ c :: cs = bs ++ c :: ds) : as = bs ∧ cs = ds := by
  induction as generalizing bs with
  | nil =>
    cases bs with
    | nil => exact ⟨rfl, (List.cons.inj h).2⟩
    | cons => exact absurd (by simp [(List.cons.inj h).1]) hb
  | cons a as ih =>
    cases bs with
    | nil => exact absurd (by simp [(List.cons.inj h).1]) ha
    | cons =>
      obtain ⟨rfl, htl⟩ := List.cons.inj h
      obtain ⟨rfl, rfl⟩ := ih (fun hc => ha (List.mem_cons_of_mem _ hc))
        (fun hc => hb (List.mem_cons_of_mem _ hc)) htl
      exact ⟨rfl, rfl⟩

/-! ## Decimal numbers -/

variable {c : Char}

theorem isDigit_of_mem_repr {n : Nat} (h : c ∈ n.repr.toList) : c.isDigit = true := by
  rw [Nat.repr_eq_ofList_toDigits, String.toList_ofList] at h
  exact Nat.isDigit_of_mem_toDigits (by decide) (by decide) h

theorem not_mem_repr {n : Nat} (hc : c.isDigit = false) : c ∉ n.repr.toList := by
  intro h
  rw [isDigit_of_mem_repr h] at hc
  exact Bool.noConfusion hc

/-! ## Prefix codes -/

/-- **Unique decoding.** A code without empty words in which no word starts another encodes lists
    injectively. -/
theorem flatMap_injective {β : Type} {f : α → List β} (hne : ∀ a, f a ≠ [])
    (hfree : ∀ a b, f a <+: f b → a = b) : Function.Injective fun xs : List α => xs.flatMap f := by
  intro xs
  induction xs with
  | nil =>
    intro ys h
    cases ys with
    | nil => rfl
    | cons y => exact absurd (List.append_eq_nil_iff.mp h.symm).1 (hne y)
  | cons x xs ih =>
    intro ys h
    cases ys with
    | nil => exact absurd (List.append_eq_nil_iff.mp h).1 (hne x)
    | cons y ys =>
      have hcat : f x ++ xs.flatMap f = f y ++ ys.flatMap f := h
      have hxy : x = y := by
        have hx : f x <+: f y ++ ys.flatMap f := hcat ▸ List.prefix_append _ _
        rcases List.prefix_or_prefix_of_prefix hx (List.prefix_append _ _) with hp | hp
        · exact hfree x y hp
        · exact (hfree y x hp).symm
      subst hxy
      exact congrArg (x :: ·) (ih (List.append_cancel_left hcat))

/-! ## Percent-encoding -/

/-- The upper-case hexadecimal digit of a number below sixteen. -/
def upperHex (n : Nat) : Char := if n < 10 then Char.ofNat (48 + n) else Char.ofNat (55 + n)

theorem upperHex_inj {m n : Nat} (hm : m < 16) (hn : n < 16) (h : upperHex m = upperHex n) : m = n := by
  have hall : ∀ m < 16, ∀ n < 16, upperHex m = upperHex n → m = n := by decide
  exact hall m hm n hn h

/-- The word of one byte: the character it may stand as, or `%` and two hexadecimal digits. -/
def percentWord (plain : UInt8 → Option Char) (b : UInt8) : List Char :=
  match plain b with
  | some c => [c]
  | none => ['%', upperHex (b.toNat / 16), upperHex (b.toNat % 16)]

/-- Percent-encoding of a byte string, where `plain` lists the bytes that need no escape. -/
def percentEncode (plain : UInt8 → Option Char) (bs : List UInt8) : List Char :=
  bs.flatMap (percentWord plain)

theorem percentWord_ne_nil (plain : UInt8 → Option Char) (b : UInt8) : percentWord plain b ≠ [] := by
  unfold percentWord
  split <;> simp

theorem percentWord_free {plain : UInt8 → Option Char} (hmark : ∀ b, plain b ≠ some '%')
    (hinj : ∀ a b c, plain a = some c → plain b = some c → a = b) (a b : UInt8)
    (h : percentWord plain a <+: percentWord plain b) : a = b := by
  unfold percentWord at h
  cases ha : plain a with
  | some c =>
    cases hb : plain b with
    | some d =>
      have hcd : c = d := by simpa [ha, hb, List.cons_prefix_cons] using h
      exact hinj a b c ha (hcd ▸ hb)
    | none =>
      have hc : c = '%' := by simpa [ha, hb, List.cons_prefix_cons] using h
      exact absurd (hc ▸ ha) (hmark a)
  | none =>
    cases hb : plain b with
    | some => simp [ha, hb, List.cons_prefix_cons] at h
    | none =>
      simp only [ha, hb, List.cons_prefix_cons, List.nil_prefix, and_true, true_and] at h
      have ha' := a.toNat_lt_size
      have hb' := b.toNat_lt_size
      simp only [UInt8.size] at ha' hb'
      have hhi := upperHex_inj (by omega) (by omega) h.1
      have hlo := upperHex_inj (by omega) (by omega) h.2
      exact UInt8.toNat_inj.mp (by omega)

/-- **Percent-encoding is injective** when unescaped bytes stay apart and none of them is `%`. -/
theorem percentEncode_injective {plain : UInt8 → Option Char} (hmark : ∀ b, plain b ≠ some '%')
    (hinj : ∀ a b c, plain a = some c → plain b = some c → a = b) :
    Function.Injective (percentEncode plain) :=
  flatMap_injective (percentWord_ne_nil plain) (percentWord_free hmark hinj)

/-- A character that is no hexadecimal digit, not `%` and never stands for a byte does not occur. -/
theorem not_mem_percentEncode {plain : UInt8 → Option Char} (hc : ∀ b, plain b ≠ some c)
    (hmark : c ≠ '%') (hhex : ∀ n < 16, upperHex n ≠ c) (bs : List UInt8) :
    c ∉ percentEncode plain bs := by
  intro hmem
  obtain ⟨b, -, hb⟩ := List.mem_flatMap.mp hmem
  unfold percentWord at hb
  have hsize := b.toNat_lt_size
  simp only [UInt8.size] at hsize
  cases hp : plain b with
  | some d =>
    have hcd : c = d := by simpa [hp] using hb
    exact hc b (hcd ▸ hp)
  | none =>
    simp only [hp, List.mem_cons, List.not_mem_nil, or_false] at hb
    rcases hb with hb | hb | hb
    · exact hmark hb
    · exact hhex _ (by omega) hb.symm
    · exact hhex _ (by omega) hb.symm

/-! ## Bytes and blanks of a text -/

/-- The UTF-8 bytes of a text. -/
def bytes (s : String) : List UInt8 := s.toUTF8.data.toList

theorem bytes_injective : Function.Injective bytes := by
  intro s t h
  have harr : s.toUTF8.data = t.toUTF8.data := Array.toList_inj.mp h
  exact String.toByteArray_inj.mp (ByteArray.ext harr)

theorem bytes_eq_flatMap (s : String) : bytes s = s.toList.flatMap String.utf8EncodeChar := by
  have hutf8 : s.toUTF8 = (s.toList.flatMap String.utf8EncodeChar).toByteArray := String.utf8Encode_toList.symm
  rw [bytes, hutf8, List.data_toByteArray]

/-- Go's reading of bytes as text; `skip` bytes belong to the character before. A byte that starts no character counts
    as the replacement character. -/
def runesFrom : Nat → List UInt8 → List Char
  | _, [] => []
  | 0, b :: bs =>
    match (b :: bs).toByteArray.utf8DecodeChar? 0 with
    | some c => c :: runesFrom (c.utf8Size - 1) bs
    | none => Char.ofNat 0xFFFD :: runesFrom 0 bs
  | skip + 1, _ :: bs => runesFrom skip bs

def runes (bs : List UInt8) : List Char := runesFrom 0 bs

theorem runesFrom_append (bs rest : List UInt8) : runesFrom bs.length (bs ++ rest) = runes rest := by
  induction bs with
  | nil => rfl
  | cons b bs ih => exact ih

theorem runes_utf8EncodeChar_append (c : Char) (rest : List UInt8) :
    runes (String.utf8EncodeChar c ++ rest) = c :: runes rest := by
  have hdecode : (String.utf8EncodeChar c ++ rest).toByteArray.utf8DecodeChar? 0 = some c := by
    rw [List.toByteArray_append]
    exact ByteArray.utf8DecodeChar?_utf8EncodeChar_append
  have hlength := String.length_utf8EncodeChar c
  cases hbytes : String.utf8EncodeChar c with
  | nil =>
    rw [hbytes] at hlength
    exact absurd hlength.symm (Nat.ne_of_gt c.utf8Size_pos)
  | cons b bs =>
    rw [hbytes] at hdecode hlength
    have hskip : c.utf8Size - 1 = bs.length := by
      rw [← hlength]
      rfl
    show runesFrom 0 (b :: (bs ++ rest)) = _
    rw [List.cons_append] at hdecode
    rw [runesFrom, hdecode]
    show c :: runesFrom (c.utf8Size - 1) (bs ++ rest) = _
    rw [hskip, runesFrom_append]

/-- Text survives its encoding. -/
theorem runes_flatMap (cs : List Char) : runes (cs.flatMap String.utf8EncodeChar) = cs := by
  induction cs with
  | nil => rfl
  | cons c cs ih => rw [List.flatMap_cons, runes_utf8EncodeChar_append, ih]

/-- A byte below 128 stands for a character of its own. -/
theorem mem_of_mem_bytes {s : String} {b : UInt8} (hb : b.toNat < 128) (h : b ∈ bytes s) :
    Char.ofNat b.toNat ∈ s.toList := by
  rw [bytes_eq_flatMap] at h
  obtain ⟨c, hc, hmem⟩ := List.mem_flatMap.mp h
  -- only the one-byte encoding has a byte below 128
  have hascii : b = UInt8.ofNat c.val.toNat ∧ c.val.toNat ≤ 127 := by
    have hhigh : ∀ n, 128 ≤ n → n < 256 → b ≠ UInt8.ofNat n := by
      rintro n hlo hhi rfl
      rw [UInt8.toNat_ofNat', Nat.mod_eq_of_lt hhi] at hb
      omega
    unfold String.utf8EncodeChar at hmem
    dsimp only at hmem
    split at hmem
    · exact ⟨List.mem_singleton.mp hmem, by assumption⟩
    · exfalso
      split at hmem
      · simp only [List.mem_cons, List.not_mem_nil, or_false] at hmem
        rcases hmem with heq | heq <;> exact hhigh _ (by omega) (by omega) heq
      · split at hmem
        · simp only [List.mem_cons, List.not_mem_nil, or_false] at hmem
          rcases hmem with heq | heq | heq <;> exact hhigh _ (by omega) (by omega) heq
        · simp only [List.mem_cons, List.not_mem_nil, or_false] at hmem
          rcases hmem with heq | heq | heq | heq <;> exact hhigh _ (by omega) (by omega) heq
  obtain ⟨rfl, hle⟩ := hascii
  have hback : Char.ofNat (UInt8.ofNat c.val.toNat).toNat = c := by
    rw [UInt8.toNat_ofNat', Nat.mod_eq_of_lt (by omega)]
    exact Char.ofNat_toNat c
  rw [hback]
  exact hc

/-- Unicode white space. -/
def isSpace (c : Char) : Bool :=
  c.toNat ∈ [0x09, 0x0A, 0x0B, 0x0C, 0x0D, 0x20, 0x85, 0xA0, 0x1680, 0x2028, 0x2029, 0x202F, 0x205F, 0x3000] ||
    (decide (0x2000 ≤ c.toNat) && decide (c.toNat ≤ 0x200A))

/-- Nothing is left of the text once surrounding white space is trimmed. -/
def blank (s : String) : Bool := s.toList.all isSpace

/-- Python's `str.isspace` for a character: Go's set and the four information separators. -/
def isPySpace (c : Char) : Bool := isSpace c || (decide (0x1C ≤ c.toNat) && decide (c.toNat ≤ 0x1F))

/-- `not s.strip()` -/
def pyBlank (s : String) : Bool := s.toList.all isPySpace

/-! ## Trimming -/

variable {p : α → Bool}

/-- Cut off the characters in `p` from both ends. -/
def trim {α : Type} (p : α → Bool) (cs : List α) : List α := ((cs.dropWhile p).reverse.dropWhile p).reverse

theorem trim_eq_nil_iff : trim p cs = [] ↔ ∀ c ∈ cs, p c = true := by
  rw [trim, List.reverse_eq_nil_iff, List.dropWhile_eq_nil_iff]
  constructor
  · intro h c hc
    rw [← List.takeWhile_append_dropWhile (p := p) (l := cs), List.mem_append] at hc
    rcases hc with hfront | hrest
    · exact List.mem_takeWhile_imp hfront
    · exact h c (List.mem_reverse.mpr hrest)
  · exact fun h c hc => h c ((List.dropWhile_sublist p).subset (List.mem_reverse.mp hc))

theorem trim_of_forall_not (h : ∀ c ∈ cs, p c = false) : trim p cs = cs := by
  have hdrop : ∀ ds : List α, (∀ c ∈ ds, p c = false) → ds.dropWhile p = ds := by
    intro ds hds
    cases ds with
    | nil => rfl
    | cons d => rw [List.dropWhile_cons, hds d List.mem_cons_self, if_neg Bool.false_ne_true]
  rw [trim, hdrop cs h, hdrop _ fun c hc => h c (List.mem_reverse.mp hc), List.reverse_reverse]

/-- Two classes that agree on a text, up to a renaming of its characters, trim it alike. -/
theorem trim_map {β : Type} {f : α → β} {q : β → Bool} (h : ∀ c ∈ cs, q (f c) = p c) :
    trim q (cs.map f) = (trim p cs).map f := by
  have hdrop : ∀ ds : List α, (∀ c ∈ ds, q (f c) = p c) → (ds.map f).dropWhile q = (ds.dropWhile p).map f := by
    intro ds hds
    induction ds with
    | nil => rfl
    | cons d ds ih =>
      rw [List.forall_mem_cons] at hds
      rw [List.map_cons, List.dropWhile_cons, List.dropWhile_cons, hds.1]
      split
      · exact ih hds.2
      · rfl
  rw [trim, trim, hdrop cs h, ← List.map_reverse, hdrop, List.map_reverse]
  exact fun c hc => h c ((List.dropWhile_sublist p).subset (List.mem_reverse.mp hc))

/-- A character of a text that is split is the separator or in one of the pieces. -/
theorem mem_splitOn {a : Char} {cs : List Char} (h : c ∈ cs) :
    c = a ∨ ∃ piece ∈ cs.splitOn a, c ∈ piece := by
  induction cs with
  | nil => exact absurd h List.not_mem_nil
  | cons d ds ih =>
    rw [List.splitOn_cons_eq_if_modifyHead]
    rcases List.mem_cons.mp h with rfl | hds
    · by_cases hsep : (c == a) = true
      · exact .inl (eq_of_beq hsep)
      · rw [if_neg hsep]
        cases hpieces : ds.splitOn a with
        | nil => exact absurd hpieces (List.splitOn_ne_nil a ds)
        | cons piece => exact .inr ⟨c :: piece, List.mem_cons_self, List.mem_cons_self⟩
    · refine (ih hds).imp_right ?_
      rintro ⟨piece, hpiece, hc⟩
      split
      · exact ⟨piece, List.mem_cons_of_mem _ hpiece, hc⟩
      · cases hpieces : ds.splitOn a with
        | nil => exact absurd hpieces (List.splitOn_ne_nil a ds)
        | cons =>
          rw [hpieces] at hpiece
          rcases List.mem_cons.mp hpiece with rfl | hrest
          · exact ⟨d :: piece, List.mem_cons_self, List.mem_cons_of_mem _ hc⟩
          · exact ⟨piece, List.mem_cons_of_mem _ hrest, hc⟩

theorem not_isSpace (hlow : 45 ≤ c.toNat) (hhigh : c.toNat ≤ 122) : isSpace c = false := by
  simp only [isSpace, List.mem_cons, List.not_mem_nil, or_false, Bool.or_eq_false_iff, Bool.and_eq_false_iff,
    decide_eq_false_iff_not]
  omega

theorem utf8ByteSize_eq_length (s : String) : s.utf8ByteSize = (bytes s).length := rfl

/-- An ASCII character takes one byte. -/
theorem utf8ByteSize_of_ascii {s : String} (h : ∀ c ∈ s.toList, c.toNat < 128) : s.utf8ByteSize = s.toList.length := by
  rw [utf8ByteSize_eq_length, bytes_eq_flatMap, List.length_flatMap]
  generalize s.toList = cs at h
  induction cs with
  | nil => rfl
  | cons c cs ih =>
    obtain ⟨hc, hcs⟩ := List.forall_mem_cons.mp h
    have hone : (String.utf8EncodeChar c).length = 1 := by
      rw [String.length_utf8EncodeChar, Char.utf8Size_eq_one_iff, UInt32.le_iff_toNat_le]
      exact Nat.le_of_lt_succ hc
    rw [List.map_cons, List.sum_cons, hone, ih hcs, List.length_cons, Nat.add_comm]

/-- A character takes one byte at least. -/
theorem length_le_utf8ByteSize (s : String) : s.toList.length ≤ s.utf8ByteSize := by
  rw [utf8ByteSize_eq_length, bytes_eq_flatMap, List.length_flatMap]
  induction s.toList with
  | nil => exact Nat.le_refl _
  | cons c =>
    have hpos : 1 ≤ (String.utf8EncodeChar c).length := by
      rw [String.length_utf8EncodeChar]
      exact c.utf8Size_pos
    rw [List.map_cons, List.sum_cons, List.length_cons]
    omega

/-- A character takes four bytes at most. -/
theorem utf8ByteSize_le (s : String) : s.utf8ByteSize ≤ 4 * s.toList.length := by
  rw [utf8ByteSize_eq_length, bytes_eq_flatMap, List.length_flatMap]
  induction s.toList with
  | nil => exact Nat.le_refl 0
  | cons c =>
    have hc : (String.utf8EncodeChar c).length ≤ 4 := by
      rw [String.length_utf8EncodeChar]
      exact Char.utf8Size_le_four c
    simp only [List.map_cons, List.sum_cons, List.length_cons]
    omega

end Text
