import Mathlib.Data.List.Infix
import Mathlib.Data.List.TakeWhile
import Umail.Mail.Notification
import Umail.Mail.ProcessIndex

/-! # The provider

  The rest of `apps/server/src/mail/email-sender.ts`: the message that the
  provider is given, and the outcome that its answer is recorded as. Only a
  code that proves that the mail was not delivered makes a rejection; a
  failure with any other cause may have been sent.

  What the schema library reads of a cause and how the cause prints are part of
  the cause here.
-/

namespace Umail

section provider

/-! ### The message that is sent -/

structure NamedAddress where
  email : String
  name : String

/-- `Cloudflare.Email.SendEmailMessage`. What is not set is left out. -/
structure SendEmailMessage where
  «from» : NamedAddress
  replyTo : NamedAddress
  «to» : List String
  subject : String
  cc : Option (List String)
  text : Option String
  html : Option String
  headers : Option (List (String × String))

def namedAddress (sender : NamedMailboxSender) : NamedAddress where
  email := sender.email
  name := sender.name.getD ""

def threadingHeaders (inReplyTo references : Option String) : Option (List (String × String)) :=
  match inReplyTo, references with
  | none, none => none
  | some inReplyTo, some references =>
    some [("In-Reply-To", inReplyTo), ("References", references)]
  | some inReplyTo, none => some [("In-Reply-To", inReplyTo)]
  | none, some references => some [("References", references)]

def toSendEmailMessage (mail : OutboundMail) : SendEmailMessage where
  «from» := namedAddress mail.from
  replyTo := namedAddress mail.replyTo
  «to» := mail.to
  subject := mail.subject
  cc := if mail.cc.isEmpty then none else some mail.cc
  text := mail.text
  html := mail.html
  headers := threadingHeaders mail.inReplyTo mail.references

/-- The headers tell the two ids apart. -/
theorem threadingHeaders_inj {inReplyTo references inReplyTo' references' : Option String}
    (h : threadingHeaders inReplyTo references = threadingHeaders inReplyTo' references') :
    inReplyTo = inReplyTo' ∧ references = references' := by
  cases inReplyTo <;> cases references <;> cases inReplyTo' <;> cases references' <;>
    simp_all [threadingHeaders]

/-- The sender with its name written out; no name is the empty one. -/
def NamedMailboxSender.named (sender : NamedMailboxSender) : NamedMailboxSender :=
  { sender with name := some (sender.name.getD "") }

theorem namedAddress_inj {a b : NamedMailboxSender} (h : namedAddress a = namedAddress b) :
    a.named = b.named := by
  obtain ⟨hemail, hname⟩ := NamedAddress.mk.inj h
  unfold NamedMailboxSender.named
  rw [hname]
  congr 1

/-- The provider is told the whole mail. -/
theorem toSendEmailMessage_inj {mail mail' : OutboundMail}
    (h : toSendEmailMessage mail = toSendEmailMessage mail') :
    { mail with «from» := mail.from.named, replyTo := mail.replyTo.named } =
      { mail' with «from» := mail'.from.named, replyTo := mail'.replyTo.named } := by
  obtain ⟨hfrom, hreply, hto, hsubject, hcc, htext, hhtml, hheaders⟩ :=
    SendEmailMessage.mk.inj h
  obtain ⟨hinReplyTo, hreferences⟩ := threadingHeaders_inj hheaders
  have hcc' : mail.cc = mail'.cc := by
    cases hnone : mail.cc <;> cases hnone' : mail'.cc <;> simp_all
  rw [namedAddress_inj hfrom, namedAddress_inj hreply, hto, hsubject, hcc', htext, hhtml,
    hinReplyTo, hreferences]

/-! ### The codes of errors -/

/-- Codes that prove the provider did not deliver the mail. -/
def REJECTED_CODES : List String := [
  "E_VALIDATION_ERROR",
  "E_FIELD_MISSING",
  "E_TOO_MANY_RECIPIENTS",
  "E_TOO_MANY_ATTACHMENTS",
  "E_SENDER_NOT_VERIFIED",
  "E_RECIPIENT_NOT_ALLOWED",
  "E_SENDER_DOMAIN_NOT_AVAILABLE",
  "E_CONTENT_TOO_LARGE",
  "E_HEADER_NOT_ALLOWED",
  "E_HEADER_USE_API_FIELD",
  "E_HEADER_VALUE_INVALID",
  "E_HEADER_VALUE_TOO_LONG",
  "E_HEADER_NAME_INVALID",
  "E_HEADERS_TOO_LARGE",
  "E_HEADERS_TOO_MANY",
  "E_RATE_LIMIT_EXCEEDED",
  "E_RECIPIENT_SUPPRESSED",
  "E_DAILY_LIMIT_EXCEEDED"]

/-- `[A-Z0-9_]` -/
def isCodeChar (c : Char) : Bool := c.isUpper || c.isDigit || c = '_'

/-- The match of `ERROR_CODE_PATTERN` at the start of the text. -/
def codeAt (text : List Char) : Option (List Char) :=
  if text.take 2 = ['E', '_'] ∧ (text.drop 2).takeWhile isCodeChar ≠ [] then
    some ('E' :: '_' :: (text.drop 2).takeWhile isCodeChar)
  else none

/-- `ERROR_CODE_PATTERN.exec`: the match that starts first. -/
def ERROR_CODE_PATTERN : List Char → Option (List Char)
  | [] => none
  | c :: cs => (codeAt (c :: cs)).or (ERROR_CODE_PATTERN cs)

/-- A text that the pattern matches as a whole. -/
def IsErrorCode (code : List Char) : Prop :=
  ∃ tail, tail ≠ [] ∧ (∀ c ∈ tail, isCodeChar c = true) ∧ code = 'E' :: '_' :: tail

theorem codeAt_some {text code : List Char} (h : codeAt text = some code) :
    IsErrorCode code ∧ code <+: text := by
  unfold codeAt at h
  split at h
  · next hmatch =>
    obtain rfl := Option.some.inj h
    obtain ⟨hstart, htail⟩ := hmatch
    refine ⟨⟨_, htail, fun c hc => List.mem_takeWhile_imp hc, rfl⟩, ?_⟩
    have hrest : (text.drop 2).takeWhile isCodeChar <+: text.drop 2 := List.takeWhile_prefix _
    rw [← List.take_append_drop 2 text, hstart]
    simpa using hrest
  · exact absurd h (by simp)

/-- Where a code starts, there is a match. -/
theorem codeAt_isSome {code : List Char} (h : IsErrorCode code) (rest : List Char) :
    (codeAt (code ++ rest)).isSome = true := by
  obtain ⟨tail, hne, hchars, rfl⟩ := h
  have htake : (tail ++ rest).takeWhile isCodeChar ≠ [] := by
    rw [List.takeWhile_append_of_pos hchars]
    exact List.append_ne_nil_of_left_ne_nil hne _
  simp [codeAt, htake]

/-- What is found is a code, and in the text. -/
theorem ERROR_CODE_PATTERN_some {text code : List Char} (h : ERROR_CODE_PATTERN text = some code) :
    IsErrorCode code ∧ code <:+: text := by
  induction text with
  | nil => exact absurd h (by simp [ERROR_CODE_PATTERN])
  | cons c cs ih =>
    rw [ERROR_CODE_PATTERN] at h
    cases hat : codeAt (c :: cs) with
    | some found =>
      rw [hat] at h
      obtain rfl := Option.some.inj h
      exact ⟨(codeAt_some hat).1, (codeAt_some hat).2.isInfix⟩
    | none =>
      rw [hat] at h
      obtain ⟨hcode, hinfix⟩ := ih h
      exact ⟨hcode, hinfix.trans (List.suffix_cons c cs).isInfix⟩

/-- Nothing is found when there is no code in the text. -/
theorem ERROR_CODE_PATTERN_none {text : List Char} :
    ERROR_CODE_PATTERN text = none ↔ ∀ code, IsErrorCode code → ¬ code <:+: text := by
  constructor
  · intro h code hcode ⟨before, after, heq⟩
    -- the code would be found where it starts, if not before
    induction before generalizing text with
    | nil =>
      obtain ⟨found, hfound⟩ := Option.isSome_iff_exists.mp (codeAt_isSome hcode after)
      obtain ⟨tail, -, -, rfl⟩ := hcode
      subst heq
      rw [List.nil_append, List.cons_append, ERROR_CODE_PATTERN, Option.or_eq_none_iff] at h
      exact absurd (hfound.symm.trans h.1) (by simp)
    | cons c before ih =>
      subst heq
      rw [List.cons_append, List.cons_append, ERROR_CODE_PATTERN, Option.or_eq_none_iff] at h
      exact ih h.2 rfl
  · intro h
    cases hfound : ERROR_CODE_PATTERN text with
    | none => rfl
    | some code =>
      obtain ⟨hcode, hinfix⟩ := ERROR_CODE_PATTERN_some hfound
      exact absurd hinfix (h code hcode)

/-- A code is found in itself. -/
theorem ERROR_CODE_PATTERN_self {code : List Char} (h : IsErrorCode code) :
    ERROR_CODE_PATTERN code = some code := by
  obtain ⟨tail, hne, hchars, rfl⟩ := h
  have htake : tail.takeWhile isCodeChar = tail := List.takeWhile_eq_self_iff.mpr hchars
  simp [ERROR_CODE_PATTERN, codeAt, htake, hne]

/-- Every rejected code is one that the pattern finds. -/
theorem isErrorCode_of_rejected {code : String} (h : code ∈ REJECTED_CODES) :
    IsErrorCode code.toList := by
  have hall : REJECTED_CODES.all (fun code => code.toList.take 2 = ['E', '_'] &&
      !(code.toList.drop 2).isEmpty && (code.toList.drop 2).all isCodeChar) = true := by
    decide +kernel
  have hcode := List.all_eq_true.mp hall code h
  simp only [Bool.and_eq_true, decide_eq_true_eq, Bool.not_eq_true', List.isEmpty_eq_false_iff]
    at hcode
  obtain ⟨⟨hstart, hne⟩, hchars⟩ := hcode
  refine ⟨_, hne, List.all_eq_true.mp hchars, ?_⟩
  rw [← List.take_append_drop 2 code.toList, hstart]
  simp

/-! ### The cause of a failure -/

structure ProviderErrorFields where
  code : Option String
  message : Option String
  name : Option String

/-- The cause of a failed send. -/
inductive ProviderCause where
  /-- An object that decodes as `ProviderErrorFields`, and `String(cause)`. -/
  | fields (decoded : ProviderErrorFields) (text : String)
  | string (text : String)
  /-- Anything else, as `String(cause)`. -/
  | other (text : String)

/-- Where a code is looked for. -/
def ProviderCause.candidates : ProviderCause → List String
  | .fields decoded _ => [decoded.code, decoded.message, decoded.name].filterMap id
  | .string text => [text]
  | .other _ => []

def providerErrorCode (cause : ProviderCause) : Option String :=
  cause.candidates.findSome? fun candidate =>
    (ERROR_CODE_PATTERN candidate.toList).map String.ofList

def MAX_FAILURE_DETAIL : Nat := 300

/-- The message of the cause, or its text. -/
def ProviderCause.message : ProviderCause → String
  | .fields decoded text => decoded.message.getD text
  | .string text => text
  | .other text => text

/-- What is told of a failure, before it is cut. -/
def failureText (cause : ProviderCause) (code : Option String) : String :=
  match code with
  | none => cause.message
  | some code =>
    if code.toList <:+: cause.message.toList then cause.message
    else code ++ ": " ++ cause.message

def providerFailureDetail (cause : ProviderCause) (code : Option String) : String :=
  String.ofList (takeUtf16 MAX_FAILURE_DETAIL (failureText cause code).toList)

def classifyProviderFailure (cause : ProviderCause) : CompleteAttemptOutcome :=
  let code := providerErrorCode cause
  let failureDetail := providerFailureDetail cause code
  if code.any (· ∈ REJECTED_CODES) then .rejected failureDetail
  else .unknown (some failureDetail)

/-- A code that is found is a code of one of the candidates. -/
theorem providerErrorCode_some {cause : ProviderCause} {code : String}
    (h : providerErrorCode cause = some code) :
    IsErrorCode code.toList ∧ ∃ candidate ∈ cause.candidates,
      code.toList <:+: candidate.toList := by
  obtain ⟨candidate, hcandidate, hfound⟩ := List.exists_of_findSome?_eq_some h
  obtain ⟨found, hmatch, rfl⟩ := Option.map_eq_some_iff.mp hfound
  obtain ⟨hcode, hinfix⟩ := ERROR_CODE_PATTERN_some hmatch
  rw [String.toList_ofList]
  exact ⟨hcode, candidate, hcandidate, hinfix⟩

example : providerErrorCode (.string "refused: E_HEADER-E_HEADERS_TOO_MANY") =
    some "E_HEADER" := by decide +kernel

/-- The text of a failure names its code. -/
theorem failureText_names (cause : ProviderCause) (code : String) :
    code.toList <:+: (failureText cause (some code)).toList := by
  simp only [failureText]
  split
  · assumption
  · rw [String.toList_append, String.toList_append, List.append_assoc]
    exact (List.prefix_append _ _).isInfix

/-- What is cut off fits. -/
theorem takeUtf16_width (n : Nat) (text : List Char) :
    ((takeUtf16 n text).map utf16Width).sum ≤ n := by
  induction text generalizing n with
  | nil => simp [takeUtf16]
  | cons c cs ih =>
    rw [takeUtf16]
    split
    · next hfits =>
      have hrest := ih (n - utf16Width c)
      rw [List.map_cons, List.sum_cons]
      omega
    · split
      · simp
      · next hpos =>
        have hwidth : utf16Width '\ufffd' = 1 := by decide
        simp only [List.map_cons, List.map_nil, List.sum_cons, List.sum_nil, hwidth]
        omega

/-- The detail that is kept is short. -/
theorem providerFailureDetail_width (cause : ProviderCause) (code : Option String) :
    ((providerFailureDetail cause code).toList.map utf16Width).sum ≤ MAX_FAILURE_DETAIL := by
  rw [providerFailureDetail, String.toList_ofList]
  exact takeUtf16_width _ _

/-- **A rejection is proven** by a code. -/
theorem classifyProviderFailure_rejected {cause : ProviderCause} :
    (∃ detail, classifyProviderFailure cause = .rejected detail) ↔
      ∃ code ∈ REJECTED_CODES, providerErrorCode cause = some code := by
  unfold classifyProviderFailure
  constructor
  · rintro ⟨detail, h⟩
    dsimp only at h
    split at h
    · next hany =>
      obtain ⟨code, hcode, hmem⟩ := (Option.any_eq_true _ _).mp hany
      exact ⟨code, of_decide_eq_true hmem, hcode⟩
    · exact absurd h (by simp)
  · rintro ⟨code, hmem, hcode⟩
    simp [hcode, hmem]

/-- A failure whose code field is a rejected code is a rejection, whatever else
    it says. -/
theorem classifyProviderFailure_code {decoded : ProviderErrorFields} {code : String}
    (hmem : code ∈ REJECTED_CODES) (hcode : decoded.code = some code) (text : String) :
    ∃ detail, classifyProviderFailure (.fields decoded text) = .rejected detail := by
  refine classifyProviderFailure_rejected.mpr ⟨code, hmem, ?_⟩
  have hself := ERROR_CODE_PATTERN_self (isErrorCode_of_rejected hmem)
  simp [providerErrorCode, ProviderCause.candidates, hcode, hself]

/-! ### The outcome of a send -/

/-- What the client of the provider answers. -/
inductive ProviderReply where
  | success (messageId : String)
  | failure (cause : ProviderCause)

/-- The `send` of `cloudflareEmailSender`, once the client has answered. -/
def sendOutcome : ProviderReply → CompleteAttemptOutcome
  | .success messageId => .accepted messageId (normalizeRfcMessageId messageId)
  | .failure cause => classifyProviderFailure cause

/-- The reply proves that the mail was not delivered. -/
def ProviderReply.Rejects (reply : ProviderReply) : Prop :=
  ∃ cause, reply = .failure cause ∧
    ∃ code ∈ REJECTED_CODES, providerErrorCode cause = some code

theorem sendOutcome_rejected {reply : ProviderReply} :
    (∃ detail, sendOutcome reply = .rejected detail) ↔ reply.Rejects := by
  cases reply with
  | success messageId => simp [sendOutcome, ProviderReply.Rejects]
  | failure cause => simp [sendOutcome, ProviderReply.Rejects, classifyProviderFailure_rejected]

/-! ### Dispatches that hear the provider -/

section dispatches
variable [Unicode] {ports : DispatchPorts} {p q : Lts.Pool MailState Dispatch}

/-- What the label answers to a dispatch is the outcome of such a reply. -/
def Hears (P : ProviderReply → Prop) : DispatchLabel → Prop
  | .step _ (.outcome outcome) => ∃ reply, P reply ∧ outcome = sendOutcome reply
  | _ => True

/-- What a dispatch is about to record is the outcome of such a reply. -/
def Records (P : ProviderReply → Prop) (p : Lts.Pool MailState Dispatch) : Prop :=
  ∀ pid d call outcome, p.procs pid = some d → d.point = .completing call outcome →
    ∃ reply, P reply ∧ outcome = sendOutcome reply

/-- A dispatch that is about to record an outcome was just told it. -/
theorem Dispatch.told_of_step {w w' : MailState} {d d' : Dispatch} {reply : DispatchReply}
    (h : d.step ports w reply = some (w', some d')) {call : SendCall}
    {outcome : CompleteAttemptOutcome} (hpoint : d'.point = .completing call outcome) :
    reply = .outcome outcome := by
  cases Dispatch.moves_of_step h with
  | hears call' outcome' hawaits =>
    obtain ⟨-, rfl⟩ := DispatchPoint.completing.inj hpoint
    cases reply with
    | outcome told =>
      simp only [Dispatch.step, hawaits] at h
      obtain ⟨-, hnext⟩ := Lts.some_pair_inj h
      obtain ⟨-, rfl⟩ := DispatchPoint.completing.inj
        (congrArg Dispatch.point (Option.some.inj hnext))
      rfl
    | _ => simp [Dispatch.step, hawaits] at h
  | reads | refuses | prepares | authorizes | identifies | claims | sends =>
    exact absurd hpoint (by simp [Dispatch.goto])

theorem Records.step {P : ProviderReply → Prop} (hp : Records P p) {l : DispatchLabel}
    (hl : Hears P l) (h : (dispatching ports).machine.step p l = some q) : Records P q := by
  intro pid d call outcome hd hpoint
  rcases Lts.Program.machine_step h with ⟨c, w, -, -, rfl⟩ | ⟨pid', a, -, -, rfl⟩ |
    ⟨pid', reply, d', w, next, rfl, hd', hstep, rfl⟩ | ⟨pid', -, rfl⟩
  · exact hp pid d call outcome hd hpoint
  · -- a dispatch starts by reading
    rcases Lts.Pool.set_cases hd with ⟨-, hnew⟩ | ⟨-, hold⟩
    · obtain rfl := Option.some.inj hnew
      exact absurd hpoint (by simp [dispatching])
    · exact hp pid d call outcome hold hpoint
  · -- the dispatch that stepped was told by this label
    rcases Lts.Pool.set_cases hd with ⟨-, rfl⟩ | ⟨-, hold⟩
    · obtain rfl := Dispatch.told_of_step hstep hpoint
      exact hl
    · exact hp pid d call outcome hold hpoint
  · rcases Lts.Pool.set_cases hd with ⟨-, hnone⟩ | ⟨-, hold⟩
    · exact absurd hnone (by simp)
    · exact hp pid d call outcome hold hpoint

/-- In a run whose dispatches hear such replies, they record no others. -/
theorem records_run {P : ProviderReply → Prop} (hp : Records P p) {ls : List DispatchLabel}
    (hrun : (dispatching ports).machine.RunBy (fun _ l _ => Hears P l) p ls q) : Records P q :=
  hrun.invariant (P := Records P) (fun _ _ _ hp hstep hl => hp.step hl hstep) hp

/-- **A notification that was sent** takes its message along only when the
    provider proves that it did not deliver it: in every run from a state
    without a dispatch whose dispatches hear such replies. -/
theorem takesAlong_rejects {P : ProviderReply → Prop} (hidle : ∀ pid, p.procs pid = none)
    {ls : List DispatchLabel}
    (hrun : (dispatching ports).machine.RunBy (fun _ l _ => Hears P l) p ls q) {pid : Nat}
    {d : Dispatch} {call : SendCall} {outcome : CompleteAttemptOutcome} {reply : DispatchReply}
    (hd : q.procs pid = some d) (hpoint : d.point = .completing call outcome)
    {jobId messageId : String} (h : TakesAlong q (.step pid reply) jobId messageId) :
    ∃ answer, P answer ∧ outcome = sendOutcome answer ∧ answer.Rejects := by
  have hp : Records P p := fun pid d _ _ hd => absurd hd (by simp [hidle pid])
  obtain ⟨answer, hanswer, rfl⟩ := records_run hp hrun pid d call outcome hd hpoint
  obtain ⟨-, c, hc, hgives, -⟩ := h
  obtain rfl : .completeAttempt (d.completeInput call (sendOutcome answer)) = c := by
    simpa [stepCommand, hd, Dispatch.command, hpoint] using hc
  exact ⟨answer, hanswer, rfl, sendOutcome_rejected.mp hgives.1⟩

end dispatches

end provider

end Umail
