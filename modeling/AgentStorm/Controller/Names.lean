import AgentStorm.Foundation.Text

/-!
# `Controller.Names` — the names Kubernetes accepts

The checks of `k8s.io/apimachinery/pkg/util/validation` on labels, subdomains, label values and the
keys of a ConfigMap, and the names that the controller makes for the objects of a run (`childName`).
-/

namespace AgentStorm.Controller

open Text

def lowerAlphanum (c : Char) : Bool := c.isLower || c.isDigit

/-- `[a-z0-9]([-a-z0-9]*[a-z0-9])?` -/
def dns1123Label (cs : List Char) : Bool :=
  cs.head?.any lowerAlphanum && cs.getLast?.any lowerAlphanum && cs.all fun c => lowerAlphanum c || c == '-'

def isDNS1123Label (s : String) : Bool := decide (s.utf8ByteSize ≤ 63) && dns1123Label s.toList

def isDNS1123Subdomain (s : String) : Bool :=
  decide (s.utf8ByteSize ≤ 253) && (s.toList.splitOn '.').all dns1123Label

/-- `[-._a-zA-Z0-9]` -/
def keyChar (c : Char) : Bool := c.isAlphanum || c == '-' || c == '.' || c == '_'

def isConfigMapKey (s : String) : Bool :=
  decide (s.utf8ByteSize ≤ 253) && decide (s ≠ "") && s.toList.all keyChar && decide (s ≠ ".") &&
    !("..".toList.isPrefixOf s.toList)

/-- `IsValidLabelValue`: `(([A-Za-z0-9][-A-Za-z0-9_.]*)?[A-Za-z0-9])?`, 63 bytes at most. -/
def isValidLabelValue (s : String) : Bool :=
  decide (s.utf8ByteSize ≤ 63) && (s.toList.isEmpty ||
    (s.toList.head?.any Char.isAlphanum && s.toList.getLast?.any Char.isAlphanum && s.toList.all keyChar))

/-! ## What a name is made of -/

variable {s : String}

theorem lowerAlphanum_range {c : Char} (h : lowerAlphanum c = true) : 48 ≤ c.toNat ∧ c.toNat ≤ 122 := by
  simp only [lowerAlphanum, Char.isLower, Char.isDigit, Bool.or_eq_true, Bool.and_eq_true, decide_eq_true_eq, ge_iff_le,
    UInt32.le_iff_toNat_le] at h
  rcases h with ⟨hl, hh⟩ | ⟨hl, hh⟩
  · exact ⟨le_trans (by decide) hl, hh⟩
  · exact ⟨hl, le_trans hh (by decide)⟩

/-- Not empty, and of printable ASCII characters without blanks. -/
def Plain (cs : List Char) : Prop := cs ≠ [] ∧ ∀ c ∈ cs, 45 ≤ c.toNat ∧ c.toNat ≤ 122

theorem plain_of_label {cs : List Char} (h : dns1123Label cs = true) : Plain cs := by
  unfold dns1123Label at h
  simp only [Bool.and_eq_true, List.all_eq_true, Bool.or_eq_true, beq_iff_eq] at h
  obtain ⟨⟨hhead, -⟩, hall⟩ := h
  refine ⟨?_, fun c hc => ?_⟩
  · rintro rfl
    exact absurd hhead (by decide)
  · rcases hall c hc with hc | rfl
    · exact ⟨le_trans (by decide) (lowerAlphanum_range hc).1, (lowerAlphanum_range hc).2⟩
    · decide

theorem plain_of_isDNS1123Label (h : isDNS1123Label s = true) :
    s.utf8ByteSize ≤ 63 ∧ Plain s.toList := by
  rw [isDNS1123Label, Bool.and_eq_true, decide_eq_true_eq] at h
  exact ⟨h.1, plain_of_label h.2⟩

theorem plain_of_isDNS1123Subdomain (h : isDNS1123Subdomain s = true) :
    s.utf8ByteSize ≤ 253 ∧ Plain s.toList := by
  rw [isDNS1123Subdomain, Bool.and_eq_true, decide_eq_true_eq, List.all_eq_true] at h
  obtain ⟨hsize, hlabels⟩ := h
  refine ⟨hsize, ?_, fun c hc => ?_⟩
  · intro hnil
    rw [hnil, List.splitOn_nil] at hlabels
    exact absurd (hlabels [] (List.mem_singleton_self _)) (by decide)
  · rcases mem_splitOn (a := '.') hc with rfl | ⟨label, hlabel, hc⟩
    · decide
    · exact (plain_of_label (hlabels label hlabel)).2 c hc

theorem Plain.not_blank (h : Plain s.toList) : blank s = false := by
  obtain ⟨hne, hall⟩ := h
  obtain ⟨c, hc⟩ := List.exists_mem_of_ne_nil _ hne
  rw [blank, List.all_eq_false]
  exact ⟨c, hc, by rw [not_isSpace (hall c hc).1 (hall c hc).2]; decide⟩

theorem Plain.no_nul (h : Plain s.toList) : s.toList.contains (Char.ofNat 0) = false := by
  rw [List.contains_eq_mem, decide_eq_false_iff_not]
  intro hmem
  exact absurd (h.2 _ hmem).1 (by decide)

/-! ## The objects of a run -/

/-- What a long name is cut to: `hash` are eight digits of its digest. -/
def shortened (hash : String → String) (name suffix : String) : String :=
  let maxBase := 63 - suffix.length - (hash name).length - 2
  String.ofList ((name.toList.take maxBase).reverse.dropWhile (· == '-')).reverse ++ "-" ++ hash name

/-- `childName(name, suffix)` of a name in ASCII. -/
def childName (hash : String → String) (name suffix : String) : String :=
  if name.length + suffix.length + 1 ≤ 63 then name ++ "-" ++ suffix else shortened hash name suffix ++ "-" ++ suffix

/-- A name is kept where there is room for the suffix. -/
def keptWhole (name suffix : String) : Prop := name.length + suffix.length + 1 ≤ 63

instance (name suffix : String) : Decidable (keptWhole name suffix) := inferInstanceAs (Decidable (_ ≤ _))

/-- The one name is what the other, which is too long, is cut to. -/
def Clash (hash : String → String) (suffix a b : String) : Prop :=
  (¬keptWhole b suffix ∧ a = shortened hash b suffix) ∨ (¬keptWhole a suffix ∧ b = shortened hash a suffix)

section ChildNames

variable {hash : String → String} {suffix a b : String}

theorem childName_of_keptWhole (h : keptWhole a suffix) : childName hash a suffix = a ++ "-" ++ suffix := if_pos h

theorem childName_of_not_keptWhole (h : ¬keptWhole a suffix) :
    childName hash a suffix = shortened hash a suffix ++ "-" ++ suffix := if_neg h

/-- What a name is cut to leaves room for the suffix. -/
theorem keptWhole_shortened (hhash : (hash a).length = 8) (hsuffix : suffix.length ≤ 53) :
    keptWhole (shortened hash a suffix) suffix := by
  have hbase : ((a.toList.take (63 - suffix.length - (hash a).length - 2)).reverse.dropWhile (· == '-')).length ≤
      63 - suffix.length - (hash a).length - 2 := by
    refine (List.length_dropWhile_le _ _).trans ?_
    rw [List.length_reverse]
    exact List.length_take_le _ _
  have hdash : "-".length = 1 := rfl
  simp only [keptWhole, shortened, String.length_append, String.length_ofList, List.length_reverse, hdash]
  omega

/-- Long names are told apart by their digests. -/
theorem hash_eq_of_shortened_eq (hlen : (hash a).length = (hash b).length)
    (h : shortened hash a suffix = shortened hash b suffix) : hash a = hash b := by
  have hlen' : (hash a).toList.length = (hash b).toList.length := by
    rw [String.length_toList, String.length_toList, hlen]
  rw [← String.toList_inj] at h
  simp only [shortened, String.toList_append] at h
  exact String.toList_inj.mp (List.append_inj_right' h hlen')

/-- **Two names with different digests make one name** exactly if the one is what the other is cut to. -/
theorem childName_eq_iff (hne : a ≠ b) (hdigests : hash a ≠ hash b) (hhash : ∀ name, (hash name).length = 8)
    (hsuffix : suffix.length ≤ 53) : childName hash a suffix = childName hash b suffix ↔ Clash hash suffix a b := by
  have hcut : ∀ name, keptWhole (shortened hash name suffix) suffix := fun name => keptWhole_shortened (hhash name) hsuffix
  unfold Clash
  by_cases ha : keptWhole a suffix <;> by_cases hb : keptWhole b suffix
  · simp [childName_of_keptWhole, ha, hb, hne]
  · simp [childName_of_keptWhole ha, childName_of_not_keptWhole hb, ha, hb]
  · simp [childName_of_not_keptWhole ha, childName_of_keptWhole hb, ha, hb, eq_comm]
  · rw [childName_of_not_keptWhole ha, childName_of_not_keptWhole hb, String.append_left_inj, String.append_left_inj]
    constructor
    · exact fun h => absurd (hash_eq_of_shortened_eq ((hhash a).trans (hhash b).symm) h) hdigests
    · rintro (⟨-, rfl⟩ | ⟨-, rfl⟩)
      · exact absurd (hcut b) ha
      · exact absurd (hcut a) hb

end ChildNames

end AgentStorm.Controller
