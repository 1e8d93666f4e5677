import AgentStorm.Results.Keys

/-!
# `Results.Platform` — the libraries the Result API calls

SHA-256, JSON, gzip and Go's quoting are parameters of the model. A digest always prints as 64 hexadecimal
digits; every other property a proof needs (no collision among the documents of a history, round trips) is a
hypothesis of that proof, so it can be read off its statement.
-/

namespace AgentStorm.Results

open Text Reliability

structure Platform where
  /-- `hex.EncodeToString(sha256.Sum256(payload))` -/
  sha256Hex : Bytes → String
  sha256Hex_pattern : ∀ payload, hexPattern 64 (sha256Hex payload) = true
  marshalRegistration : Registration → Bytes
  marshalTerminal : TerminalRequest → Bytes
  marshalUpload : ShardUpload → Bytes
  unmarshalUpload : Bytes → Option ShardUpload
  marshalCase : CaseResult → Bytes
  marshalScenario : FaultScenario → Bytes
  /-- Strict decoding of one document; `none` on unknown fields or trailing data. -/
  decodeScenario : Bytes → Option FaultScenario
  gzip : Bytes → Bytes
  gunzip : Bytes → Option Bytes
  /-- Go's `%q`. -/
  quote : String → String

namespace Platform

variable (P : Platform)

def registrationHash (registration : Registration) : String :=
  P.sha256Hex (P.marshalRegistration registration)

def terminalHash (terminal : TerminalRequest) : String := P.sha256Hex (P.marshalTerminal terminal)

def payloadHash (upload : ShardUpload) : String := P.sha256Hex (P.marshalUpload upload)

def caseHash (item : CaseResult) : String := P.sha256Hex (P.marshalCase item)

/-- `schedulerTokenHash`: an absent token hashes to the empty text. -/
def tokenHash (token : String) : String := if token = "" then "" else P.sha256Hex (bytes token)

variable {P}

theorem not_blank_sha256Hex (payload : Bytes) : blank (P.sha256Hex payload) = false := by
  have h := P.sha256Hex_pattern payload
  unfold hexPattern at h
  simp only [Bool.and_eq_true, decide_eq_true_eq, List.all_eq_true] at h
  obtain ⟨hlen, hhex⟩ := h
  unfold blank
  cases hcs : (P.sha256Hex payload).toList with
  | nil => simp [hcs] at hlen
  | cons c =>
    have hc : lowerHex c = true := hhex c (by simp [hcs])
    rw [List.all_cons, not_isSpace_of_lowerHex hc, Bool.false_and]

theorem not_blank_tokenHash {token : String} (h : token ≠ "") : blank (P.tokenHash token) = false := by
  rw [tokenHash, if_neg h]
  exact not_blank_sha256Hex _

/-- Tokens whose bytes do not collide have different hashes, the absent token included. -/
theorem tokenHash_inj {tokens : Set String} (hinj : Set.InjOn (fun t => P.sha256Hex (bytes t)) tokens)
    {t u : String} (ht : t ∈ tokens) (hu : u ∈ tokens) (h : P.tokenHash t = P.tokenHash u) : t = u := by
  have hne : ∀ v : String, P.sha256Hex (bytes v) ≠ "" := by
    intro v hv
    have hb := P.not_blank_sha256Hex (bytes v)
    rw [hv] at hb
    exact Bool.noConfusion hb
  unfold tokenHash at h
  split at h
  · rename_i ht0
    split at h
    · rename_i hu0
      rw [ht0, hu0]
    · exact absurd h.symm (hne u)
  · split at h
    · exact absurd h (hne t)
    · exact hinj ht hu h

end Platform

/-! ## Scheduler tokens -/

def base64URLChar (c : Char) : Bool := c.isAlphanum || c == '-' || c == '_'

/-- What `schedulerToken` returns: 32 random bytes in unpadded base64. -/
structure SchedulerToken where
  text : String
  shape : (decide (text.toList.length = 43) && text.toList.all base64URLChar) = true

theorem SchedulerToken.text_ne_empty (token : SchedulerToken) : token.text ≠ "" := by
  intro h
  have hshape := token.shape
  rw [h] at hshape
  exact absurd hshape (by decide)

theorem base64URLChar_toNat {c : Char} (h : base64URLChar c = true) : 45 ≤ c.toNat ∧ c.toNat ≤ 122 := by
  simp only [base64URLChar, Char.isAlphanum, Char.isAlpha, Char.isUpper, Char.isLower, Char.isDigit, Bool.or_eq_true,
    Bool.and_eq_true, decide_eq_true_eq, beq_iff_eq, UInt32.le_iff_toNat_le] at h
  rcases h with (((hupper | hlower) | hdigit) | rfl) | rfl
  · exact ⟨le_trans (by decide) hupper.1, le_trans hupper.2 (by decide)⟩
  · exact ⟨le_trans (by decide) hlower.1, le_trans hlower.2 (by decide)⟩
  · exact ⟨le_trans (by decide) hdigit.1, le_trans hdigit.2 (by decide)⟩
  · decide
  · decide

/-- A token passes the check of every endpoint that takes one. -/
theorem SchedulerToken.accepted (token : SchedulerToken) : (blank token.text || invalidText token.text 512) = false := by
  have hshape := token.shape
  simp only [Bool.and_eq_true, decide_eq_true_eq, List.all_eq_true] at hshape
  obtain ⟨hlength, hchars⟩ := hshape
  rw [Bool.or_eq_false_iff, invalidText, Bool.or_eq_false_iff]
  refine ⟨?_, ?_, ?_⟩
  · obtain ⟨c, hc⟩ := List.exists_mem_of_length_pos (by omega : 0 < token.text.toList.length)
    obtain ⟨hlow, hhigh⟩ := base64URLChar_toNat (hchars c hc)
    rw [Text.blank, List.all_eq_false]
    exact ⟨c, hc, by rw [Text.not_isSpace hlow hhigh]; exact Bool.false_ne_true⟩
  · have hsize := Text.utf8ByteSize_le token.text
    rw [hlength] at hsize
    exact decide_eq_false (by omega)
  · rw [Bool.eq_false_iff, ne_eq, List.contains_iff_mem]
    intro hnul
    exact absurd (hchars _ hnul) (by decide)

end AgentStorm.Results
