import Mathlib.Data.String.Basic
import Mathlib.Data.List.Sort
import Umail.Account.Domain

/-! # Threading

  `apps/server/src/account/errors.ts` and `threading.ts`: how a message is
  linked to every thread it shares a Message-ID with. The query looks at one
  holder of each Message-ID only; that this is enough is the invariant proved
  in `Umail.Account.ThreadInvariant`.
-/

namespace Umail

open Relational

/-! ### Errors -/

/-- `JobAuthorizationReason` -/
inductive JobAuthorizationReason where
  | send_denied
  | recipient_not_allowed
  | mailbox_forbidden
  | client_inactive
  deriving DecidableEq

/-- What an account command throws. A transaction that throws is rolled back. -/
inductive StoreError where
  | messageConflict (messageId : String)
  | receiptMissing (messageId : String)
  | jobMissing (messageId : String)
  | threadNotFound (threadId : String)
  | accountConflict (address : String)
  | jobAuthorization (reason : JobAuthorizationReason) (addresses : List String)
  | submissionConflict (requestId requesterClientId : String)
  /-- A row that the code requires is missing; a plain `Error`. -/
  | missing (id : String)
  /-- SQLite refused a row that breaks a uniqueness constraint. -/
  | constraint
  deriving DecidableEq

/-- The result of an `INSERT`. -/
def inserted {α : Type} : Option α → Except StoreError α
  | some a => .ok a
  | none => .error .constraint

@[simp] theorem inserted_eq_ok {α : Type} {o : Option α} {a : α} :
    inserted o = .ok a ↔ o = some a := by
  cases o <;> simp [inserted]

/-- A sequence of two fallible computations succeeds when both do. -/
theorem bind_eq_ok {α β : Type} {x : Except StoreError α} {f : α → Except StoreError β}
    {b : β} : (x >>= f) = .ok b ↔ ∃ a, x = .ok a ∧ f a = .ok b := by
  cases x with
  | error e => simp [bind, Except.bind]
  | ok a => simp [bind, Except.bind]

/-- It fails when one of the two does. -/
theorem bind_eq_error {α β : Type} {x : Except StoreError α} {f : α → Except StoreError β}
    {e : StoreError} :
    (x >>= f) = .error e ↔ x = .error e ∨ ∃ a, x = .ok a ∧ f a = .error e := by
  cases x with
  | error e' => simp [bind, Except.bind]
  | ok a => simp [bind, Except.bind]

theorem inserted_eq_error {α : Type} {o : Option α} {e : StoreError}
    (h : inserted o = .error e) : e = .constraint := by
  cases o with
  | none => exact (Except.error.inj h).symm
  | some a => exact absurd h (by simp [inserted])

theorem map_eq_ok {α β : Type} {x : Except StoreError α} {f : α → β} {b : β} :
    x.map f = .ok b ↔ ∃ a, x = .ok a ∧ f a = b := by
  cases x <;> simp [Except.map]

/-- Two successful results are the same pair. -/
theorem ok_pair_inj {α β : Type} {a a' : α} {b b' : β}
    (h : (Except.ok (a, b) : Except StoreError (α × β)) = .ok (a', b')) : a = a' ∧ b = b' :=
  Prod.mk.inj (Except.ok.inj h)

theorem ok_of_toOption {ε α : Type} {r : Except ε α} {a : α} (h : r.toOption = some a) :
    r = .ok a := by
  cases r with
  | error e => exact absurd h (by simp [Except.toOption])
  | ok b => exact congrArg Except.ok (Option.some.inj h)

/-! ### Headers -/

def THREADING_REFERENCE_LIMIT : Nat := 128

structure ThreadingHeaders where
  rfcMessageId : Option NormalizedRfcMessageId
  inReplyTo : Option NormalizedRfcMessageId
  references : List NormalizedRfcMessageId

/-- Keeps the newest `THREADING_REFERENCE_LIMIT` References, oldest first. -/
def normalizeThreadingHeaders (rfcMessageId inReplyTo references : Option String) :
    ThreadingHeaders where
  rfcMessageId := rfcMessageId.bind normalizeRfcMessageId
  inReplyTo := inReplyTo.bind normalizeRfcMessageId
  references :=
    match references with
    | none => []
    | some raw =>
      let ids := normalizeRfcMessageIdList raw
      ids.drop (ids.length - THREADING_REFERENCE_LIMIT)

section linking
variable [Unicode]

/-! ### `LINKED_THREADS` -/

/-- `ids`: the Message-IDs a message contributes. -/
def linkIds (s : Store) (m : MessageRow) : List NormalizedRfcMessageId :=
  m.rfc_message_id.toList ++ m.in_reply_to_rfc_message_id.toList ++
    (s.references.select (·.message_id = m.id)).map (·.rfc_message_id)

/-- The one other holder of `value` that the query looks at: the `COALESCE` of
    an owner, a direct reply and a referrer. -/
def linkHolder (s : Store) (self : MessageRow) (value : NormalizedRfcMessageId) :
    Option MessageRow :=
  (s.messages.find? fun m => m.id ≠ self.id && m.rfc_message_id = some value) <|>
  (s.messages.find? fun m => m.id ≠ self.id && m.in_reply_to_rfc_message_id = some value) <|>
  (s.references.rows.findSome? fun r =>
    if r.rfc_message_id = value then
      s.messages.find? fun m => m.id = r.message_id && m.id ≠ self.id
    else none)

/-- `linked` -/
def linkedThreads (s : Store) (self : MessageRow) : List String :=
  self.thread_id :: (linkIds s self).filterMap fun value =>
    (linkHolder s self value).map (·.thread_id)

/-- `ORDER BY founder.created_at, founder.id` -/
def founderOrder (a b : MessageRow) : Prop :=
  a.created_at < b.created_at ∨ (a.created_at = b.created_at ∧ a.id ≤ b.id)

instance : DecidableRel founderOrder := fun _ _ => inferInstanceAs (Decidable (_ ∨ _))

/-- The founders of the linked threads, oldest first. -/
def linkedFounders (s : Store) (self : MessageRow) : List MessageRow :=
  (s.messages.select (·.id ∈ linkedThreads s self)).insertionSort founderOrder

/-- `UPDATE messages SET thread_id = ? WHERE thread_id IN ..` -/
def moveThreads (messages : Table MessageRow) (survivor : String) (merged : List String) :
    Table MessageRow :=
  messages.update (·.thread_id ∈ merged) (fun m => { m with thread_id := survivor })
    fun _ => rfl

/-- Merges every thread that shares a Message-ID with the message into the
    oldest one. -/
def linkThread (s : Store) (messageId : String) : Except StoreError (String × Store) :=
  match s.messages.find? (·.id = messageId) with
  | none => .error (.missing messageId)
  | some self =>
    match linkedFounders s self with
    | [] => .error (.missing messageId)
    | survivor :: merged =>
      if merged.isEmpty then .ok (survivor.id, s)
      else
        .ok (survivor.id,
          { s with messages := moveThreads s.messages survivor.id (merged.map (·.id)) })

end linking

end Umail
