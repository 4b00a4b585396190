import Umail.Contract.MailContact
import Umail.Framework.Json

/-! # Submissions

  `packages/api-contract/src/submission-domain.ts`, the submit payloads of
  `api-spec.ts`, and `submissionFingerprint` of
  `apps/server/src/api/operations.ts`: the id a client chooses for a request,
  the payload it sends, and the text by which a retry is recognized.

  The fingerprint covers what the caller sent and nothing else: two payloads
  have one fingerprint exactly when they have the same content.
-/

namespace Umail

/-! ### Request ids -/

/-- `[0-9a-fA-F]` -/
def isHexDigit (c : Char) : Bool :=
  ('0' ≤ c && c ≤ '9') || ('a' ≤ c && c ≤ 'f') || ('A' ≤ c && c ≤ 'F')

/-- Where the pattern `UUID` has a dash. -/
def uuidDashes : List Nat := [8, 13, 18, 23]

/-- The pattern `UUID`: hex digits in groups of 8, 4, 4, 4 and 12. -/
def isUuid (raw : String) : Bool :=
  raw.toList.length = 36 &&
    raw.toList.zipIdx.all fun (c, i) => if i ∈ uuidDashes then c = '-' else isHexDigit c

/-- Decodes a `SubmissionRequestId`: a UUID, in lower case. -/
def decodeSubmissionRequestId (raw : String) : Option String :=
  if isUuid raw then some (raw.map Char.toLower) else none

/-- A decoded `SubmissionRequestId`. -/
def IsSubmissionRequestId (requestId : String) : Prop :=
  ∃ raw, decodeSubmissionRequestId raw = some requestId

/-- A property of the dash and of the hex digits holds along a UUID. -/
theorem isUuid_forall {P : Char → Prop} [DecidablePred P] {raw : String}
    (h : isUuid raw = true) (hdash : P '-')
    (hdigits : ∀ n < 128, isHexDigit (Char.ofNat n) = true → P (Char.ofNat n)) :
    ∀ c ∈ raw.toList, P c := by
  intro c hc
  obtain ⟨i, hi, rfl⟩ := List.mem_iff_getElem.mp hc
  have hall := List.all_eq_true.mp (Bool.and_eq_true_iff.mp h).2 (raw.toList[i], i)
    (List.mem_zipIdx_iff_getElem?.mpr (by simp [hi]))
  by_cases hpos : i ∈ uuidDashes
  · simp only [hpos, if_true, decide_eq_true_eq] at hall
    rwa [hall]
  · simp only [hpos, if_false] at hall
    -- a hex digit is an ASCII character
    have hascii : raw.toList[i].toNat < 128 := by
      generalize raw.toList[i] = c at hall
      simp only [isHexDigit, Bool.or_eq_true, Bool.and_eq_true, decide_eq_true_eq, Char.le_def,
        UInt32.le_iff_toNat_le, Char.toNat_val] at hall
      have h9 : ('9' : Char).toNat = 57 := rfl
      have hf : ('f' : Char).toNat = 102 := rfl
      have hF : ('F' : Char).toNat = 70 := rfl
      omega
    rw [← Char.ofNat_toNat raw.toList[i]] at hall ⊢
    exact hdigits _ hascii hall

/-- A UUID contains no underscore. -/
theorem isUuid_ne_underscore {raw : String} (h : isUuid raw = true) :
    ∀ c ∈ raw.toList, c ≠ '_' := isUuid_forall h (by decide) (by decide)

/-- A decoded request id contains no colon. -/
theorem IsSubmissionRequestId.ne_colon {requestId : String} (h : IsSubmissionRequestId requestId) :
    ∀ c ∈ requestId.toList, c ≠ ':' := by
  obtain ⟨raw, hraw⟩ := h
  unfold decodeSubmissionRequestId at hraw
  split at hraw
  · next huuid =>
    obtain rfl := Option.some.inj hraw
    intro c hc
    rw [String.toList_map] at hc
    obtain ⟨d, hd, rfl⟩ := List.mem_map.mp hc
    exact isUuid_forall (P := fun d => d.toLower ≠ ':') huuid (by decide) (by decide) d hd
  · exact absurd hraw (by simp)

/-! ### JSON values -/

def jsonString (s : String) : Json.Value := .string s.toList

/-- A string or `null`. -/
def jsonNullable : Option String → Json.Value
  | none => .null
  | some s => jsonString s

theorem jsonString_injective : Function.Injective jsonString := by
  intro s t h
  exact String.toList_inj.mp (Json.Value.string.inj h)

theorem jsonNullable_injective : Function.Injective jsonNullable := by
  intro s t h
  cases s with
  | none =>
    cases t with
    | none => rfl
    | some t => exact absurd h (by simp [jsonNullable, jsonString])
  | some s =>
    cases t with
    | none => exact absurd h (by simp [jsonNullable, jsonString])
    | some t => rw [jsonString_injective h]

/-! ### Payloads -/

inductive ReplyMode where
  | reply
  | reply_all
  deriving DecidableEq

def ReplyMode.text : ReplyMode → String
  | .reply => "reply"
  | .reply_all => "reply-all"

theorem ReplyMode.text_injective : Function.Injective ReplyMode.text := by
  intro m n h
  cases m <;> cases n <;> first | rfl | exact absurd h (by decide)

section payloads
variable [Unicode]

/-- `MailContact`: an absent display name decodes to null. -/
structure MailContact where
  address : ExternalMailAddress
  displayName : Option String

/-- The fields of the two intents; `to` is a non-empty array. -/
inductive SubmissionIntent where
  | compose (firstTo : MailContact) (restTo : List MailContact) (cc : Option (List MailContact))
  | reply (replyToMessageId : String) (replyMode : ReplyMode)

/-- `SubmitMessagePayload` -/
structure SubmitMessagePayload where
  requestId : String
  fromAddressId : String
  subject : String
  text : Option String
  html : Option String
  intent : SubmissionIntent

/-! ### The fingerprint -/

/-- `contacts(list)` -/
def fingerprintContacts (contacts : List MailContact) : Json.Value :=
  .array (contacts.map fun contact =>
    .array [jsonString contact.address.val, jsonNullable contact.displayName])

def fingerprintIntent : SubmissionIntent → Json.Value
  | .compose firstTo restTo cc =>
    .array [jsonString "compose", fingerprintContacts (firstTo :: restTo),
      fingerprintContacts (cc.getD [])]
  | .reply replyToMessageId replyMode =>
    .array [jsonString "reply", jsonString replyToMessageId, jsonString replyMode.text]

/-- The value that `submissionFingerprint` serializes. -/
def fingerprintValue (payload : SubmitMessagePayload) : Json.Value :=
  .array [jsonString payload.fromAddressId, jsonString payload.subject, jsonNullable payload.text,
    jsonNullable payload.html, fingerprintIntent payload.intent]

def submissionFingerprint (payload : SubmitMessagePayload) : String :=
  String.ofList (fingerprintValue payload).text

/-! ### Content -/

/-- Two intents ask for the same: an absent `cc` counts as an empty one. -/
inductive SubmissionIntent.SameContent : SubmissionIntent → SubmissionIntent → Prop where
  | compose {firstTo : MailContact} {restTo : List MailContact}
      {cc cc' : Option (List MailContact)} :
      cc.getD [] = cc'.getD [] → SameContent (.compose firstTo restTo cc)
        (.compose firstTo restTo cc')
  | reply {replyToMessageId : String} {replyMode : ReplyMode} :
      SameContent (.reply replyToMessageId replyMode) (.reply replyToMessageId replyMode)

/-- Two payloads have the same content. The request id is the key under which
    a content is submitted, not a part of it. -/
structure SubmitMessagePayload.SameContent (p q : SubmitMessagePayload) : Prop where
  fromAddressId : p.fromAddressId = q.fromAddressId
  subject : p.subject = q.subject
  text : p.text = q.text
  html : p.html = q.html
  intent : p.intent.SameContent q.intent

theorem fingerprintContacts_injective : Function.Injective fingerprintContacts := by
  intro cs ds h
  refine (List.map_injective_iff.mpr ?_) (Json.Value.array.inj h)
  intro c d hcd
  have hpair := Json.Value.array.inj hcd
  simp only [List.cons.injEq, and_true] at hpair
  cases c
  cases d
  rw [MailContact.mk.injEq]
  exact ⟨Subtype.ext (jsonString_injective hpair.1), jsonNullable_injective hpair.2⟩

theorem fingerprintIntent_eq_iff {i j : SubmissionIntent} :
    fingerprintIntent i = fingerprintIntent j ↔ i.SameContent j := by
  constructor
  · intro h
    -- the kinds differ in their first field
    cases i with
    | compose firstTo restTo cc =>
      cases j with
      | compose firstTo' restTo' cc' =>
        have hfields := Json.Value.array.inj h
        simp only [List.cons.injEq, and_true] at hfields
        obtain ⟨rfl, rfl⟩ := List.cons.inj (fingerprintContacts_injective hfields.2.1)
        exact .compose (fingerprintContacts_injective hfields.2.2)
      | reply replyToMessageId replyMode =>
        have hfields := Json.Value.array.inj h
        simp only [List.cons.injEq, and_true] at hfields
        exact absurd (jsonString_injective hfields.1) (by decide)
    | reply replyToMessageId replyMode =>
      cases j with
      | compose firstTo restTo cc =>
        have hfields := Json.Value.array.inj h
        simp only [List.cons.injEq, and_true] at hfields
        exact absurd (jsonString_injective hfields.1) (by decide)
      | reply replyToMessageId' replyMode' =>
        have hfields := Json.Value.array.inj h
        simp only [List.cons.injEq, and_true] at hfields
        obtain rfl := jsonString_injective hfields.2.1
        obtain rfl := ReplyMode.text_injective (jsonString_injective hfields.2.2)
        exact .reply
  · intro h
    cases h with
    | compose hcc => simp only [fingerprintIntent, hcc]
    | reply => rfl

/-- **Fingerprints.** They agree exactly on payloads with the same content. -/
theorem submissionFingerprint_eq_iff {p q : SubmitMessagePayload} :
    submissionFingerprint p = submissionFingerprint q ↔ p.SameContent q := by
  constructor
  · intro h
    have hvalue : fingerprintValue p = fingerprintValue q :=
      Json.Value.text_injective (String.ofList_injective h)
    have hfields := Json.Value.array.inj hvalue
    simp only [List.cons.injEq, and_true] at hfields
    obtain ⟨hfrom, hsubject, htext, hhtml, hintent⟩ := hfields
    exact ⟨jsonString_injective hfrom, jsonString_injective hsubject,
      jsonNullable_injective htext, jsonNullable_injective hhtml,
      fingerprintIntent_eq_iff.mp hintent⟩
  · intro h
    unfold submissionFingerprint fingerprintValue
    rw [h.fromAddressId, h.subject, h.text, h.html, fingerprintIntent_eq_iff.mpr h.intent]

end payloads

end Umail
