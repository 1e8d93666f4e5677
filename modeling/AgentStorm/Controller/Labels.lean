import AgentStorm.Controller.Names
import AgentStorm.Results.Keys

/-!
# `Controller.Labels` — names and labels of the generated objects

Whether the API server accepts the names and labels of the generated objects, for every name a run can
have. A subdomain is read by an automaton of three states (`NameState`): a label has to begin, the last
character was a letter or a digit, or it was a dash. A cut name is a run of it that stops early.
-/

namespace AgentStorm.Controller

open Results Text

/-! ## Reading a subdomain -/

inductive NameState
  | start
  | inner
  | dash
  deriving DecidableEq

def NameState.next : NameState → Char → Option NameState
  | .start, c => if lowerAlphanum c then some .inner else none
  | .inner, c => if lowerAlphanum c then some .inner else if c = '-' then some .dash else if c = '.' then some .start else none
  | .dash, c => if lowerAlphanum c then some .inner else if c = '-' then some .dash else none

def NameState.read (q : NameState) (cs : List Char) : Option NameState := cs.foldlM NameState.next q

namespace NameState

@[simp] theorem read_nil (q : NameState) : q.read [] = some q := rfl

@[simp] theorem read_cons (q : NameState) (c : Char) (cs : List Char) :
    q.read (c :: cs) = (q.next c).bind fun q' => q'.read cs := rfl

@[simp] theorem read_append (q : NameState) (cs ds : List Char) :
    q.read (cs ++ ds) = (q.read cs).bind fun q' => q'.read ds := by
  unfold read
  rw [List.foldlM_append]
  rfl

theorem read_concat (q : NameState) (cs : List Char) (c : Char) :
    q.read (cs ++ [c]) = (q.read cs).bind fun q' => q'.next c := by
  rw [read_append]
  refine Option.bind_congr fun q' _ => ?_
  exact Option.bind_fun_some _

theorem next_alphanum (q : NameState) {c : Char} (hc : lowerAlphanum c = true) : q.next c = some .inner := by
  cases q <;> exact if_pos hc

theorem next_dash_of_inner : NameState.next .inner '-' = some .dash := rfl

theorem read_alphanum {cs : List Char} (hne : cs ≠ []) (h : ∀ c ∈ cs, lowerAlphanum c = true) (q : NameState) :
    q.read cs = some .inner := by
  induction cs generalizing q with
  | nil => exact absurd rfl hne
  | cons c cs ih =>
    rw [List.forall_mem_cons] at h
    rw [read_cons, next_alphanum q h.1, Option.bind_some]
    cases cs with
    | nil => rfl
    | cons => exact ih (List.cons_ne_nil _ _) h.2 _

/-- The state tells the last character. -/
theorem next_eq_some {q q' : NameState} {c : Char} (h : q.next c = some q') :
    (q' = .inner ∧ lowerAlphanum c = true) ∨ (q' = .dash ∧ c = '-' ∧ q ≠ .start) ∨ (q' = .start ∧ c = '.' ∧ q = .inner) := by
  by_cases hc : lowerAlphanum c = true
  · rw [next_alphanum q hc] at h
    exact .inl ⟨(Option.some.inj h).symm, hc⟩
  · cases q <;> simp only [next, hc, Bool.false_eq_true, if_false] at h
    · cases h
    · split at h
      · rename_i hdash
        exact .inr (Or.inl ⟨(Option.some.inj h).symm, hdash, by decide⟩)
      · split at h
        · rename_i hdot
          exact .inr (Or.inr ⟨(Option.some.inj h).symm, hdot, rfl⟩)
        · cases h
    · split at h
      · rename_i hdash
        exact .inr (Or.inl ⟨(Option.some.inj h).symm, hdash, by decide⟩)
      · cases h

end NameState

theorem not_lowerAlphanum_dash : lowerAlphanum '-' = false := by decide

theorem not_lowerAlphanum_dot : lowerAlphanum '.' = false := by decide

/-- Within a label the automaton checks its form. -/
theorem read_label {cs : List Char} (hne : cs ≠ []) (hdots : '.' ∉ cs) :
    NameState.read .start cs =
      if (cs.head?.any lowerAlphanum && cs.all fun c => lowerAlphanum c || c == '-') then
        some (if cs.getLast?.any lowerAlphanum then .inner else .dash)
      else none := by
  induction cs using List.reverseRecOn with
  | nil => exact absurd rfl hne
  | append_singleton cs c ih =>
    rw [List.mem_append, not_or, List.mem_singleton] at hdots
    by_cases hnil : cs = []
    · subst hnil
      by_cases hc : lowerAlphanum c = true <;> simp [NameState.next, hc]
    · rw [NameState.read_concat, ih hnil hdots.1, List.head?_append_of_ne_nil _ hnil]
      by_cases hgood : (cs.head?.any lowerAlphanum && cs.all fun c => lowerAlphanum c || c == '-') = true
      · rw [if_pos hgood, Option.bind_some]
        rw [Bool.and_eq_true] at hgood
        by_cases hc : lowerAlphanum c = true
        · simp [NameState.next_alphanum, hc, hgood.1, hgood.2]
        · by_cases hdash : c = '-'
          · subst hdash
            cases cs.getLast?.any lowerAlphanum <;>
              simp [NameState.next, not_lowerAlphanum_dash, hgood.1, hgood.2]
          · cases cs.getLast?.any lowerAlphanum <;>
              simp [NameState.next, hc, hdash, Ne.symm hdots.2]
      · rw [if_neg hgood, Option.bind_none, if_neg]
        intro hall
        simp only [List.all_append, Bool.and_eq_true] at hall hgood
        exact hgood ⟨hall.1, hall.2.1⟩

theorem dns1123Label_iff {cs : List Char} (hdots : '.' ∉ cs) :
    dns1123Label cs = true ↔ NameState.read .start cs = some .inner := by
  by_cases hnil : cs = []
  · subst hnil
    decide
  · rw [read_label hnil hdots, dns1123Label]
    cases cs.head?.any lowerAlphanum <;> cases cs.getLast?.any lowerAlphanum <;>
      cases cs.all fun c => lowerAlphanum c || c == '-' <;> simp

/-- Along the text, `label` is what has been read of the current label. -/
theorem all_labels_iff {label cs : List Char} (hdots : '.' ∉ label) :
    ((cs.splitOn '.').modifyHead (label ++ ·)).all dns1123Label = true ↔
      NameState.read .start (label ++ cs) = some .inner := by
  induction cs generalizing label with
  | nil => simp [List.splitOn_nil, dns1123Label_iff hdots]
  | cons c cs ih =>
    by_cases hc : c = '.'
    · subst hc
      have hrest := ih (List.not_mem_nil (a := '.'))
      have hid : (cs.splitOn '.').modifyHead (([] : List Char) ++ ·) = cs.splitOn '.' := by
        cases cs.splitOn '.' <;> rfl
      rw [hid, List.nil_append] at hrest
      have hsplit : ('.' :: cs).splitOn '.' = [] :: cs.splitOn '.' := by
        simp [List.splitOn, List.splitOnP_cons_eq_if_modifyHead]
      rw [hsplit, List.modifyHead_cons, List.append_nil, List.all_cons, Bool.and_eq_true, hrest,
        dns1123Label_iff hdots, NameState.read_append]
      cases NameState.read .start label with
      | none => simp
      | some q => cases q <;> simp [NameState.next, not_lowerAlphanum_dot]
    · have hsplit : (c :: cs).splitOn '.' = (cs.splitOn '.').modifyHead (List.cons c) := by
        simp [List.splitOn, List.splitOnP_cons_eq_if_modifyHead, hc]
      have hcomp : ((cs.splitOn '.').modifyHead (List.cons c)).modifyHead (label ++ ·) =
          (cs.splitOn '.').modifyHead ((label ++ [c]) ++ ·) := by
        cases cs.splitOn '.' <;> simp
      rw [hsplit, hcomp, ih (by simp [hdots, Ne.symm hc]), List.append_assoc, List.singleton_append]

/-- **The automaton accepts the subdomains.** -/
theorem isDNS1123Subdomain_iff {s : String} :
    isDNS1123Subdomain s = true ↔ s.utf8ByteSize ≤ 253 ∧ NameState.read .start s.toList = some .inner := by
  have hlabels := @all_labels_iff [] s.toList List.not_mem_nil
  have hid : (s.toList.splitOn '.').modifyHead (([] : List Char) ++ ·) = s.toList.splitOn '.' := by
    cases s.toList.splitOn '.' <;> rfl
  rw [hid, List.nil_append] at hlabels
  rw [isDNS1123Subdomain, Bool.and_eq_true, decide_eq_true_eq, hlabels]

/-! ## Cut names -/

/-- `strings.TrimRight(cs, "-")` -/
def trimDashes (cs : List Char) : List Char := (cs.reverse.dropWhile (· == '-')).reverse

theorem trimDashes_concat (cs : List Char) (c : Char) :
    trimDashes (cs ++ [c]) = if c = '-' then trimDashes cs else cs ++ [c] := by
  unfold trimDashes
  rw [List.reverse_append, List.reverse_singleton, List.singleton_append, List.dropWhile_cons]
  by_cases hc : c = '-'
  · simp [hc]
  · simp [hc]

/-- Without the dashes at its end, a part of a name ends in a letter or a digit where it ended in a dash. -/
theorem read_trimDashes {cs : List Char} {q : NameState} (h : NameState.read .start cs = some q) :
    NameState.read .start (trimDashes cs) = some (if q = .dash then .inner else q) := by
  induction cs using List.reverseRecOn generalizing q with
  | nil =>
    cases h
    rfl
  | append_singleton cs c ih =>
    have hcs := h
    rw [NameState.read_concat] at h
    obtain ⟨q', hq', hnext⟩ := Option.bind_eq_some_iff.mp h
    rw [trimDashes_concat]
    rcases NameState.next_eq_some hnext with ⟨rfl, hc⟩ | ⟨rfl, rfl, hstart⟩ | ⟨rfl, rfl, -⟩
    · have hne : c ≠ '-' := by
        rintro rfl
        exact absurd hc (by decide)
      rw [if_neg hne]
      exact hcs
    · rw [if_pos rfl, ih hq']
      cases q' with
      | start => exact absurd rfl hstart
      | inner => rfl
      | dash => rfl
    · exact hcs

/-- A part of a name ends where a label has to begin exactly if its last character is a dot. -/
theorem read_take_start_iff {cs : List Char} {q : NameState} {n : Nat} (hn : n < cs.length)
    (h : NameState.read .start (cs.take (n + 1)) = some q) : q = .start ↔ cs[n]? = some '.' := by
  rw [List.take_succ_eq_append_getElem hn, NameState.read_concat] at h
  obtain ⟨q', -, hnext⟩ := Option.bind_eq_some_iff.mp h
  rw [List.getElem?_eq_getElem hn, Option.some.injEq]
  rcases NameState.next_eq_some hnext with ⟨rfl, hc⟩ | ⟨rfl, hc, -⟩ | ⟨rfl, hc, -⟩
  · refine iff_of_false (by decide) fun hdot => ?_
    rw [hdot] at hc
    exact absurd hc (by decide)
  · refine iff_of_false (by decide) fun hdot => ?_
    exact absurd (hc.symm.trans hdot) (by decide)
  · exact ⟨fun _ => hc, fun _ => rfl⟩

/-! ## The names of the objects -/

namespace NameState

theorem chars_of_read {cs : List Char} {q q' : NameState} (h : q.read cs = some q') :
    ∀ c ∈ cs, lowerAlphanum c = true ∨ c = '-' ∨ c = '.' := by
  induction cs generalizing q with
  | nil => exact fun c hc => absurd hc List.not_mem_nil
  | cons d cs ih =>
    obtain ⟨q₁, hnext, hread⟩ := Option.bind_eq_some_iff.mp h
    refine List.forall_mem_cons.mpr ⟨?_, ih hread⟩
    rcases next_eq_some hnext with ⟨-, hd⟩ | ⟨-, hd, -⟩ | ⟨-, hd, -⟩
    · exact .inl hd
    · exact .inr (Or.inl hd)
    · exact .inr (Or.inr hd)

theorem head_of_read {cs : List Char} (h : NameState.read .start cs = some .inner) : cs.head?.any lowerAlphanum = true := by
  cases cs with
  | nil => exact absurd h (by decide)
  | cons =>
    obtain ⟨q, hnext, -⟩ := Option.bind_eq_some_iff.mp h
    by_contra hc
    exact absurd hnext (by simp_all [NameState.next])

theorem last_of_read {cs : List Char} (h : NameState.read .start cs = some .inner) :
    cs.getLast?.any lowerAlphanum = true := by
  induction cs using List.reverseRecOn with
  | nil => exact absurd h (by decide)
  | append_singleton =>
    rw [read_concat] at h
    obtain ⟨q, -, hnext⟩ := Option.bind_eq_some_iff.mp h
    rw [List.getLast?_append_of_ne_nil _ (List.cons_ne_nil _ _)]
    rcases next_eq_some hnext with ⟨-, hc⟩ | ⟨hq, -⟩ | ⟨hq, -⟩
    · exact hc
    · cases hq
    · cases hq

/-- What stands behind the name of the run. -/
theorem read_tail {digits suffix : List Char} (hdigits : digits ≠ [] ∧ ∀ c ∈ digits, lowerAlphanum c = true)
    (hsuffix : suffix ≠ [] ∧ ∀ c ∈ suffix, lowerAlphanum c = true) (q : NameState) :
    q.read ('-' :: (digits ++ '-' :: suffix)) = if q = .start then none else some .inner := by
  cases q with
  | start => rfl
  | inner =>
    rw [read_cons, next_dash_of_inner, Option.bind_some, read_append, read_alphanum hdigits.1 hdigits.2, Option.bind_some,
      read_cons, next_dash_of_inner, Option.bind_some, read_alphanum hsuffix.1 hsuffix.2]
    rfl
  | dash =>
    have hdash : NameState.next .dash '-' = some .dash := rfl
    rw [read_cons, hdash, Option.bind_some, read_append, read_alphanum hdigits.1 hdigits.2, Option.bind_some,
      read_cons, next_dash_of_inner, Option.bind_some, read_alphanum hsuffix.1 hsuffix.2]
    rfl

end NameState

theorem lowerAlphanum_of_lowerHex {c : Char} (h : lowerHex c = true) : lowerAlphanum c = true := by
  simp only [lowerHex, Bool.or_eq_true, Bool.and_eq_true, decide_eq_true_eq] at h
  rw [lowerAlphanum, Bool.or_eq_true]
  rcases h with h | ⟨hl, hh⟩
  · exact .inr h
  · refine .inl ?_
    simp only [Char.isLower, Bool.and_eq_true, decide_eq_true_eq]
    exact ⟨hl, le_trans hh (by decide)⟩

section ChildNames

variable {hash : String → String} {name suffix : String}

theorem utf8ByteSize_of_read {s : String} {q : NameState} (h : NameState.read .start s.toList = some q) :
    s.utf8ByteSize = s.length := by
  refine (utf8ByteSize_of_ascii fun c hc => ?_).trans String.length_toList
  rcases NameState.chars_of_read h c hc with hc | rfl | rfl
  · exact Nat.lt_of_le_of_lt (lowerAlphanum_range hc).2 (by decide)
  · decide
  · decide

theorem length_childName_le (hhash : (hash name).length = 8) (hsuffix : suffix.length ≤ 52) :
    (childName hash name suffix).length ≤ 63 := by
  have hdash : "-".length = 1 := rfl
  by_cases h : keptWhole name suffix
  · rw [childName_of_keptWhole h, String.length_append, String.length_append, hdash]
    have hroom : name.length + suffix.length + 1 ≤ 63 := h
    omega
  · rw [childName_of_not_keptWhole h, String.length_append, String.length_append, hdash]
    have hroom : (shortened hash name suffix).length + suffix.length + 1 ≤ 63 :=
      keptWhole_shortened hhash (le_trans hsuffix (by decide))
    omega

/-- **A child name is a subdomain** unless the name is cut behind a dot. -/
theorem subdomain_childName_iff (hname : NameState.read .start name.toList = some .inner)
    (hhash : hexPattern 8 (hash name) = true) (hsuffix : suffix.toList ≠ [] ∧ ∀ c ∈ suffix.toList, lowerAlphanum c = true)
    (hlength : suffix.length ≤ 52) :
    isDNS1123Subdomain (childName hash name suffix) = true ↔
      keptWhole name suffix ∨ name.toList[52 - suffix.length]? ≠ some '.' := by
  rw [hexPattern, Bool.and_eq_true, decide_eq_true_eq, List.all_eq_true] at hhash
  have hdigits : (hash name).toList ≠ [] ∧ ∀ c ∈ (hash name).toList, lowerAlphanum c = true := by
    refine ⟨?_, fun c hc => lowerAlphanum_of_lowerHex (hhash.2 c hc)⟩
    intro hnil
    rw [hnil] at hhash
    exact absurd hhash.1 (by decide)
  have hhashLength : (hash name).length = 8 := by rw [← String.length_toList, hhash.1]
  -- a text that the automaton accepts is short enough
  have hsize : ∀ {q}, NameState.read .start (childName hash name suffix).toList = some q →
      (childName hash name suffix).utf8ByteSize ≤ 253 := by
    intro q hq
    rw [utf8ByteSize_of_read hq]
    exact le_trans (length_childName_le hhashLength hlength) (by decide)
  have hread : isDNS1123Subdomain (childName hash name suffix) = true ↔
      NameState.read .start (childName hash name suffix).toList = some .inner := by
    rw [isDNS1123Subdomain_iff]
    exact ⟨fun h => h.2, fun h => ⟨hsize h, h⟩⟩
  rw [hread]
  by_cases hkept : keptWhole name suffix
  · simp only [hkept, true_or, iff_true]
    rw [childName_of_keptWhole hkept, String.toList_append, String.toList_append, List.append_assoc,
      NameState.read_append, hname, Option.bind_some]
    show (NameState.inner.next '-').bind (fun q => q.read suffix.toList) = _
    rw [NameState.next_dash_of_inner, Option.bind_some, NameState.read_alphanum hsuffix.1 hsuffix.2]
  · simp only [hkept, false_or]
    have hlong : 52 - suffix.length < name.toList.length := by
      have hroom : ¬name.length + suffix.length + 1 ≤ 63 := hkept
      rw [String.length_toList]
      omega
    have hbase : 63 - suffix.length - (hash name).length - 2 = 52 - suffix.length + 1 := by omega
    -- the part that is kept leaves the automaton in some state, since the whole name is read
    obtain ⟨q, hq⟩ : ∃ q, NameState.read .start (name.toList.take (52 - suffix.length + 1)) = some q := by
      rw [← List.take_append_drop (52 - suffix.length + 1) name.toList, NameState.read_append] at hname
      obtain ⟨q, hq, -⟩ := Option.bind_eq_some_iff.mp hname
      exact ⟨q, hq⟩
    have htext : (childName hash name suffix).toList =
        trimDashes (name.toList.take (52 - suffix.length + 1)) ++ ('-' :: ((hash name).toList ++ '-' :: suffix.toList)) := by
      simp only [childName_of_not_keptWhole hkept, shortened, hbase, String.toList_append, String.toList_ofList,
        List.append_assoc]
      rfl
    rw [htext, NameState.read_append, read_trimDashes hq, Option.bind_some, NameState.read_tail hdigits hsuffix,
      Ne, ← read_take_start_iff hlong hq]
    cases q <;> simp

end ChildNames

/-! ## Labels -/

/-- The labels of `buildJob`. -/
def workerLabels (name : String) : List (String × String) :=
  [("app.kubernetes.io/name", "agentstorm-worker"), ("app.kubernetes.io/managed-by", "agentstorm-controller"),
    ("agentstorm.io/run", name)]

/-- The metadata of an execution child and of the Pods it creates. -/
structure ChildMeta where
  name : String
  labels : List (String × String)
  podLabels : List (String × String)

/-- The metadata that `buildJob` makes for the run `name`. -/
def jobMeta (hash : String → String) (name : String) : ChildMeta where
  name := childName hash name "worker"
  labels := workerLabels name
  podLabels := workerLabels name

/-- The metadata that `buildScaledJob` makes: the labels are those of the Job, and so is its Pod template. -/
def scaledJobMeta (hash : String → String) (name : String) : ChildMeta where
  name := childName hash name "worker"
  labels := (jobMeta hash name).labels
  podLabels := (jobMeta hash name).podLabels

theorem isAlphanum_of_lowerAlphanum {c : Char} (h : lowerAlphanum c = true) : c.isAlphanum = true := by
  simp only [lowerAlphanum, Bool.or_eq_true] at h
  simp only [Char.isAlphanum, Char.isAlpha, Bool.or_eq_true]
  tauto

/-- A subdomain is a label value exactly if it is short enough. -/
theorem isValidLabelValue_iff {s : String} (h : NameState.read .start s.toList = some .inner) :
    isValidLabelValue s = true ↔ s.length ≤ 63 := by
  have hany : ∀ {c : Option Char}, c.any lowerAlphanum = true → c.any Char.isAlphanum = true := by
    intro c hc
    cases c with
    | none => exact hc
    | some => exact isAlphanum_of_lowerAlphanum hc
  have hchars : s.toList.all keyChar = true := by
    rw [List.all_eq_true]
    intro c hc
    rcases NameState.chars_of_read h c hc with hc | rfl | rfl
    · simp [keyChar, isAlphanum_of_lowerAlphanum hc]
    · decide
    · decide
  rw [isValidLabelValue, utf8ByteSize_of_read h, hany (NameState.head_of_read h), hany (NameState.last_of_read h), hchars]
  simp

/-- The API server accepts the names and the labels of the objects that are made for a run. -/
structure ObjectsValid (hash : String → String) (name : String) : Prop where
  config : isDNS1123Subdomain (childName hash name "config") = true ∧ (childName hash name "config").length ≤ 63
  worker : isDNS1123Subdomain (childName hash name "worker") = true ∧ (childName hash name "worker").length ≤ 63
  job : ∀ label ∈ (jobMeta hash name).labels ++ (jobMeta hash name).podLabels, isValidLabelValue label.2 = true
  scaledJob : ∀ label ∈ (scaledJobMeta hash name).labels ++ (scaledJobMeta hash name).podLabels,
    isValidLabelValue label.2 = true

/-- **Which runs get valid objects**: a name of at most 56 characters is kept, a longer one must not be cut behind a dot,
    and as a label no name may have more than 63 characters. -/
theorem generated_objects_iff {hash : String → String} {name : String} (hhash : hexPattern 8 (hash name) = true)
    (hname : isDNS1123Subdomain name = true) :
    ObjectsValid hash name ↔ name.length ≤ 56 ∨ (name.length ≤ 63 ∧ name.toList[46]? ≠ some '.') := by
  obtain ⟨-, hread⟩ := isDNS1123Subdomain_iff.mp hname
  have hlength : (hash name).length = 8 := by
    rw [hexPattern, Bool.and_eq_true, decide_eq_true_eq] at hhash
    rw [← String.length_toList, hhash.1]
  have hchild : ∀ {suffix : String}, suffix.length = 6 → suffix.toList.all lowerAlphanum = true →
      ((isDNS1123Subdomain (childName hash name suffix) = true ∧ (childName hash name suffix).length ≤ 63) ↔
        name.length ≤ 56 ∨ name.toList[46]? ≠ some '.') := by
    intro suffix hsix hplain
    have hne : suffix.toList ≠ [] := by
      intro hnil
      rw [← String.length_toList, hnil] at hsix
      exact absurd hsix (by decide)
    have hkept : keptWhole name suffix ↔ name.length ≤ 56 := by
      unfold keptWhole
      omega
    rw [subdomain_childName_iff hread hhash ⟨hne, List.all_eq_true.mp hplain⟩ (by omega), hkept, hsix]
    exact and_iff_left (length_childName_le hlength (by omega))
  have hconfig := @hchild "config" (by decide) (by decide)
  have hworker := @hchild "worker" (by decide) (by decide)
  have hlabels : (∀ label ∈ workerLabels name ++ workerLabels name, isValidLabelValue label.2 = true) ↔ name.length ≤ 63 := by
    have hfixed : isValidLabelValue "agentstorm-worker" = true ∧ isValidLabelValue "agentstorm-controller" = true := by decide
    rw [← isValidLabelValue_iff hread]
    simp [workerLabels, hfixed]
  constructor
  · intro h
    rcases hconfig.mp h.config with hshort | hdot
    · exact .inl hshort
    · exact .inr ⟨hlabels.mp h.job, hdot⟩
  · intro h
    have hdot : name.length ≤ 56 ∨ name.toList[46]? ≠ some '.' := h.imp_right And.right
    have hlong : name.length ≤ 63 := by
      rcases h with h | h
      · omega
      · exact h.1
    exact ⟨hconfig.mpr hdot, hworker.mpr hdot, hlabels.mpr hlong, hlabels.mpr hlong⟩

/-- A name that is cut, though not behind a dot. -/
theorem generated_objects_cut :
    isDNS1123Subdomain (String.ofList (List.replicate 60 'a')) = true ∧
      ObjectsValid (fun _ => "11ee3912") (String.ofList (List.replicate 60 'a')) := by
  have hname : isDNS1123Subdomain (String.ofList (List.replicate 60 'a')) = true := by decide +kernel
  exact ⟨hname, (generated_objects_iff (by decide) hname).mpr (by decide +kernel)⟩

/-- The 47th character is a dot, and there are 64: the names of both children and a label are refused. -/
def dottedName : String := String.ofList (List.replicate 46 'a' ++ '.' :: List.replicate 17 'b')

theorem generated_objects_dotted :
    isDNS1123Subdomain dottedName = true ∧ ¬ObjectsValid (fun _ => "987890bd") dottedName ∧
      isDNS1123Subdomain (childName (fun _ => "987890bd") dottedName "config") = false ∧
      isDNS1123Subdomain (childName (fun _ => "987890bd") dottedName "worker") = false ∧
      isValidLabelValue dottedName = false := by
  have hconfig : isDNS1123Subdomain (childName (fun _ => "987890bd") dottedName "config") = false := by decide +kernel
  refine ⟨by decide +kernel, fun h => ?_, hconfig, by decide +kernel, by decide +kernel⟩
  exact absurd (h.config.1.symm.trans hconfig) (by decide)

end AgentStorm.Controller
