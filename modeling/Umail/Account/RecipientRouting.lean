import Umail.Account.Peripheral
import Umail.Framework.Pool

/-! # Route reconciliation

  `mail/recipient-rules.ts` and `account/recipient-routing.ts` of
  `apps/server/src`. A pass works off the due routes one after the other. It
  suspends at every call of the rule client; between two of these calls an
  attempt is one synchronous piece of code, here a function from the store
  and the reply to the store and what the attempt does next.
-/

namespace Umail

open Relational

/-! ### Recipient rules -/

structure RuleMatcher where
  type : String
  field : Option String
  value : Option String

structure RuleAction where
  type : String
  value : Option (List String)

structure RecipientRule where
  id : String
  name : Option String
  enabled : Option Bool
  matchers : Option (List RuleMatcher)
  actions : Option (List RuleAction)

structure RecipientRuleError where
  message : String
  retryable : Bool

def RuleMatcher.addresses (matcher : RuleMatcher) (address : String) : Bool :=
  matcher.type = "literal" && matcher.field = some "to" && matcher.value = some address

def ruleMatches (rule : RecipientRule) (address worker : String) : Bool :=
  (match rule.matchers with
    | some [matcher] => matcher.addresses address
    | _ => false) &&
  match rule.actions with
  | some [action] => action.type = "worker" && action.value = some [worker]
  | _ => false

def ruleAddresses (rule : RecipientRule) (address : String) : Bool :=
  (rule.matchers.getD []).any (·.addresses address)

structure LegacySeedRule where
  id : String
  zoneId : String
  address : String

structure ResolvedMailDomain where
  name : String
  receive : Bool
  send : Bool
  zoneId : String

structure RecipientRoutingPorts where
  domains : List ResolvedMailDomain
  workerName : String
  ownerPrefix : String
  legacySeeds : List LegacySeedRule

def ownershipFailure (message : String) : RecipientRuleError := { message, retryable := false }

section routing
variable [Unicode]

/-! ### One attempt -/

/-- The constants of an attempt: the mailbox as it was first read, and its zone. -/
structure RouteAttempt where
  id : String
  mailbox : AccountAddress
  zoneId : String

namespace RouteAttempt

variable (ports : RecipientRoutingPorts) (a : RouteAttempt)

def owner : String := ports.ownerPrefix ++ a.id

def seed : Option LegacySeedRule :=
  ports.legacySeeds.find? fun rule =>
    rule.zoneId = a.zoneId && rule.address = a.mailbox.address.val

def candidates (rules : List RecipientRule) : List RecipientRule :=
  rules.filter fun rule =>
    some rule.id = a.mailbox.routing.ruleId || rule.name = some (a.owner ports) ||
      some rule.id = (a.seed ports).map (·.id)

def permitted (rule : RecipientRule) : Bool :=
  ruleMatches rule a.mailbox.address.val ports.workerName &&
    (rule.name = some (a.owner ports) || some rule.id = (a.seed ports).map (·.id))

/-- The rule is on and carries the owner's name. -/
def settled (rule : RecipientRule) : Bool :=
  rule.enabled = some true && rule.name = some (a.owner ports)

/-- The owned rule of a list, or why the list is refused. -/
def checkRules (rules : List RecipientRule) :
    Except RecipientRuleError (Option RecipientRule) :=
  let address := a.mailbox.address.val
  let candidates := a.candidates ports rules
  let own := candidates.head?
  if candidates.length > 1 then
    .error (ownershipFailure (s!"Multiple rules claim {address}; " ++
      "resolve them in Cloudflare before retrying."))
  else if own.any fun rule => !a.permitted ports rule then
    .error (ownershipFailure (s!"The stored rule for {address} has changed owner or target; " ++
      "no rule was changed."))
  else if rules.any fun rule => some rule.id ≠ own.map (·.id) && ruleAddresses rule address then
    .error (ownershipFailure
      s!"{address} already has another routing rule; umail will not take it over.")
  else .ok own

end RouteAttempt

/-- The call of the rule client at which an attempt is suspended. From the
    second read of the mailbox on it carries what that read returned. -/
inductive RouteAwait where
  | listing (a : RouteAttempt)
  | reading (a : RouteAttempt) (current : AccountAddress) (own : RecipientRule)
  | removing (a : RouteAttempt) (current : AccountAddress) (own : RecipientRule)
  | saving (a : RouteAttempt) (current : AccountAddress) (own : Option RecipientRule)

/-- What the last read of the mailbox returned to a suspended attempt. -/
def RouteAwait.lastRead : RouteAwait → AccountAddress
  | .listing a => a.mailbox
  | .reading _ current _ | .removing _ current _ | .saving _ current _ => current

def RouteAwait.attempt : RouteAwait → RouteAttempt
  | .listing a | .reading a _ _ | .removing a _ _ | .saving a _ _ => a

/-- What the client answers. -/
inductive RouteReply where
  | unit
  | list (result : Except RecipientRuleError (List RecipientRule))
  | read (result : Except RecipientRuleError (Option RecipientRule))
  | remove (result : Except RecipientRuleError Unit)
  | save (result : Except RecipientRuleError RecipientRule)

/-- The answer of a call that fails. -/
def RouteAwait.failure (e : RecipientRuleError) : RouteAwait → RouteReply
  | .listing _ => .list (.error e)
  | .reading _ _ _ => .read (.error e)
  | .removing _ _ _ => .remove (.error e)
  | .saving _ _ _ => .save (.error e)

/-- How a synchronous piece of an attempt ends. An attempt that ends says
    what its last read of the mailbox returned. -/
inductive RouteOutcome where
  | awaits (call : RouteAwait)
  | returns (seen : Option AccountAddress)
  | fails (error : RecipientRuleError) (seen : Option AccountAddress)

/-- Up to the first call. The zone is persisted before a write can have an
    uncertain result, including a concurrent retire. -/
def beginRoute (ports : RecipientRoutingPorts) (s : Store) (id : String) :
    Store × RouteOutcome :=
  match getAddress s id with
  | none => (s, .returns none)
  | some mailbox =>
    match mailbox.routing.zoneId <|> (ports.domains.find? fun domain =>
        domain.receive && domain.name = mailbox.domain).map (·.zoneId) with
    | none =>
      (s, .fails (ownershipFailure
        s!"Receiving domain {mailbox.domain} is not configured; no rule was changed.")
        (some mailbox))
    | some zoneId => (writeRoute s id (.zone zoneId), .awaits (.listing { id, mailbox, zoneId }))

/-- The rule that ended up as the owned one is recorded, and confirmed. -/
def confirmRoute (ports : RecipientRoutingPorts) (s : Store) (a : RouteAttempt)
    (current : AccountAddress) (saved : RecipientRule) (now : Instant) : Store × RouteOutcome :=
  let s₁ := writeRoute s a.id (.rule saved.id)
  if !a.permitted ports saved || !a.settled ports saved then
    (s₁, .fails (ownershipFailure
      (s!"Cloudflare did not confirm the owned rule for {a.mailbox.address.val}; " ++
        "inspect it before retrying.")) (some current))
  else (writeRoute s₁ a.id (.confirmed saved.id now), .returns (some current))

/-- With the owned rule known: a retired mailbox loses it, any other gets it. -/
def settleRoute (ports : RecipientRoutingPorts) (s : Store) (a : RouteAttempt)
    (current : AccountAddress) (own : Option RecipientRule) (now : Instant) :
    Store × RouteOutcome :=
  if current.retiredAt.isSome then
    match own with
    | some own => (s, .awaits (.removing a current own))
    | none => (writeRoute s a.id .removed, .returns (some current))
  else
    match own with
    | some rule =>
      if a.settled ports rule then confirmRoute ports s a current rule now
      else (s, .awaits (.saving a current own))
    | none => (s, .awaits (.saving a current none))

/-- From one reply of the client to the next call, or to the end. -/
def resumeRoute (ports : RecipientRoutingPorts) (s : Store) (now : Instant) :
    RouteAwait → RouteReply → Option (Store × RouteOutcome)
  | .listing a, .list (.error e) => some (s, .fails e (some a.mailbox))
  | .listing a, .list (.ok rules) =>
    match a.checkRules ports rules with
    | .error e => some (s, .fails e (some a.mailbox))
    | .ok own =>
      -- the latest retirement intent
      match getAddress s a.id with
      | none => some (s, .returns none)
      | some current =>
        match own with
        | some own => some (s, .awaits (.reading a current own))
        | none => some (settleRoute ports s a current none now)
  | .reading _ current _, .read (.error e) => some (s, .fails e (some current))
  | .reading a current _, .read (.ok (some fresh)) =>
    if !a.permitted ports fresh then
      some (s, .fails (ownershipFailure
        (s!"The rule for {a.mailbox.address.val} changed while reconciling; " ++
          "no rule was changed.")) (some current))
    else some (settleRoute ports s a current (some fresh) now)
  | .reading a current _, .read (.ok none) => some (settleRoute ports s a current none now)
  | .removing _ current _, .remove (.error e) => some (s, .fails e (some current))
  | .removing a current _, .remove (.ok ()) =>
    some (writeRoute s a.id .removed, .returns (some current))
  | .saving _ current _, .save (.error e) => some (s, .fails e (some current))
  | .saving a current _, .save (.ok saved) => some (confirmRoute ports s a current saved now)
  | _, _ => none

/-! ### The pass -/

/-- A row of `SELECT mailbox_id, attempts FROM mailbox_routes ..`. -/
structure DueRoute where
  mailbox_id : String
  attempts : Nat

/-- `ORDER BY retry_after, mailbox_id`, for rows with a retry time. -/
def routeOrder (a b : MailboxRouteRow) : Prop :=
  a.retry_after.getD 0 < b.retry_after.getD 0 ∨
    (a.retry_after = b.retry_after ∧ a.mailbox_id ≤ b.mailbox_id)

instance : DecidableRel routeOrder := fun _ _ => inferInstanceAs (Decidable (_ ∨ _))

/-- `WHERE retry_after <= ? ORDER BY retry_after, mailbox_id LIMIT 10` -/
def dueRoutes (s : Store) (now : Instant) : List DueRoute :=
  (((s.routes.select fun r => r.retry_after.any (· ≤ now)).insertionSort routeOrder).take 10).map
    fun r => { mailbox_id := r.mailbox_id, attempts := r.attempts }

/-- The delay of a retry: a minute that doubles with each attempt, up to an hour. -/
def retryDelay (attempts : Nat) : Nat := min (60000 * 2 ^ min (attempts - 1) 6) 3600000

/-- The failure handler of one row. -/
def recordRouteFailure (s : Store) (row : DueRoute) (nowMs : Instant)
    (error : RecipientRuleError) : Store :=
  let attempts := row.attempts + 1
  writeRoute s row.mailbox_id (.failed error.message attempts
    (if error.retryable then some (nowMs + retryDelay attempts) else none))

/-- Where a pass is suspended. -/
inductive RoutePassPoint where
  | selecting
  /-- Before the next row. -/
  | between (rows : List DueRoute)
  | attempting (row : DueRoute) (rest : List DueRoute) (call : RouteAwait)

/-- A running `reconcileDueRecipientRoutes(storage, ports, nowMs)`. -/
structure RoutePass where
  nowMs : Instant
  point : RoutePassPoint

def RoutePass.goto (p : RoutePass) (point : RoutePassPoint) : RoutePass := { p with point }

/-- What the pass does with the outcome of the attempt at `row`. -/
def RoutePass.proceed (p : RoutePass) (row : DueRoute) (rest : List DueRoute) :
    Store × RouteOutcome → Store × RoutePass
  | (s, .awaits call) => (s, p.goto (.attempting row rest call))
  | (s, .returns _) => (s, p.goto (.between rest))
  | (s, .fails error _) => (recordRouteFailure s row p.nowMs error, p.goto (.between rest))

/-- The row a step works on, the rows after it, and how the step leaves its attempt. -/
def RoutePass.attempt (ports : RecipientRoutingPorts) (s : Store) (p : RoutePass)
    (reply : RouteReply) : Option (DueRoute × List DueRoute × Store × RouteOutcome) :=
  match p.point, reply with
  | .between (row :: rest), .unit => some (row, rest, beginRoute ports s row.mailbox_id)
  | .attempting row rest call, reply =>
    (resumeRoute ports s p.nowMs call reply).map fun out => (row, rest, out)
  | _, _ => none

def RoutePass.step (ports : RecipientRoutingPorts) (s : Store) (p : RoutePass)
    (reply : RouteReply) : Option (Store × Option RoutePass) :=
  match p.point, reply with
  | .selecting, .unit => some (s, some (p.goto (.between (dueRoutes s p.nowMs))))
  | .between [], .unit => some (s, none)
  | _, _ => (p.attempt ports s reply).map fun (row, rest, out) =>
    ((p.proceed row rest out).1, some (p.proceed row rest out).2)

/-- Passes next to arbitrary commands, from the migrated empty store. -/
def reconciling (ports : RecipientRoutingPorts) :
    Lts.Program Store RoutePass Command Instant RouteReply where
  init s := s = Store.empty
  env s c := some (s.exec c)
  start nowMs := { nowMs, point := .selecting }
  step := RoutePass.step ports

/-! ### What an attempt does -/

/-- A sequence of route writes leads from one store to the other. -/
abbrev RouteWrites : Store → Store → Prop :=
  Relation.ReflTransGen fun s s' => ∃ id write, s' = writeRoute s id write

variable {ports : RecipientRoutingPorts} {s s' : Store} {a : RouteAttempt} {now : Instant}
  {out : RouteOutcome}

theorem RouteWrites.one (s : Store) (id : String) (write : RouteWrite) :
    RouteWrites s (writeRoute s id write) := .single ⟨id, write, rfl⟩

/-- Recording the rule that ended up as the owned one. -/
inductive Confirms (ports : RecipientRoutingPorts) (s : Store) (a : RouteAttempt)
    (current : AccountAddress) (saved : RecipientRule) (now : Instant) :
    Store → RouteOutcome → Prop where
  /-- It is not the owned rule, or not on. -/
  | refused (e : RecipientRuleError) :
      (!a.permitted ports saved || !a.settled ports saved) = true → e.retryable = false →
      Confirms ports s a current saved now (writeRoute s a.id (.rule saved.id))
        (.fails e (some current))
  | confirmed :
      (!a.permitted ports saved || !a.settled ports saved) = false →
      Confirms ports s a current saved now
        (writeRoute (writeRoute s a.id (.rule saved.id)) a.id (.confirmed saved.id now))
        (.returns (some current))

theorem confirmRoute_confirms {current : AccountAddress} {saved : RecipientRule}
    (h : confirmRoute ports s a current saved now = (s', out)) :
    Confirms ports s a current saved now s' out := by
  unfold confirmRoute at h
  split at h
  · next hrefused =>
    obtain ⟨rfl, rfl⟩ := Prod.mk.inj h
    exact .refused _ hrefused rfl
  · next hconfirmed =>
    obtain ⟨rfl, rfl⟩ := Prod.mk.inj h
    exact .confirmed (by simpa using hconfirmed)

/-- What follows once the owned rule is known. -/
inductive Settles (ports : RecipientRoutingPorts) (s : Store) (a : RouteAttempt)
    (current : AccountAddress) (now : Instant) :
    Option RecipientRule → Store → RouteOutcome → Prop where
  | remove (own : RecipientRule) : current.retiredAt.isSome = true →
      Settles ports s a current now (some own) s (.awaits (.removing a current own))
  | removed : current.retiredAt.isSome = true →
      Settles ports s a current now none (writeRoute s a.id .removed) (.returns (some current))
  | confirm (rule : RecipientRule) (s' : Store) (out : RouteOutcome) :
      current.retiredAt = none → a.settled ports rule = true →
      Confirms ports s a current rule now s' out →
      Settles ports s a current now (some rule) s' out
  | save (own : Option RecipientRule) : current.retiredAt = none →
      Settles ports s a current now own s (.awaits (.saving a current own))

theorem settleRoute_settles {current : AccountAddress} {own : Option RecipientRule}
    (h : settleRoute ports s a current own now = (s', out)) :
    Settles ports s a current now own s' out := by
  unfold settleRoute at h
  -- a retired mailbox loses its rule, a live one keeps or gets it
  by_cases hret : current.retiredAt.isSome = true
  · rw [if_pos hret] at h
    cases own with
    | some own =>
      obtain ⟨rfl, rfl⟩ := Prod.mk.inj h
      exact .remove own hret
    | none =>
      obtain ⟨rfl, rfl⟩ := Prod.mk.inj h
      exact .removed hret
  · rw [if_neg hret] at h
    have hnone : current.retiredAt = none := by simpa using hret
    cases own with
    | some rule =>
      simp only at h
      split at h
      · next hsettled => exact .confirm rule s' out hnone hsettled (confirmRoute_confirms h)
      · obtain ⟨rfl, rfl⟩ := Prod.mk.inj h
        exact .save (some rule) hnone
    | none =>
      obtain ⟨rfl, rfl⟩ := Prod.mk.inj h
      exact .save none hnone

/-- What an attempt does with a reply. -/
inductive Resumes (ports : RecipientRoutingPorts) (s : Store) (now : Instant) :
    RouteAwait → RouteReply → Store → RouteOutcome → Prop where
  /-- The client fails. -/
  | failed (call : RouteAwait) (e : RecipientRuleError) :
      Resumes ports s now call (call.failure e) s (.fails e (some call.lastRead))
  /-- The list is refused. -/
  | refused (a : RouteAttempt) (rules : List RecipientRule) (e : RecipientRuleError) :
      a.checkRules ports rules = .error e →
      Resumes ports s now (.listing a) (.list (.ok rules)) s (.fails e (some a.mailbox))
  | gone (a : RouteAttempt) (rules : List RecipientRule) (own : Option RecipientRule) :
      a.checkRules ports rules = .ok own → getAddress s a.id = none →
      Resumes ports s now (.listing a) (.list (.ok rules)) s (.returns none)
  | found (a : RouteAttempt) (rules : List RecipientRule) (current : AccountAddress)
      (own : RecipientRule) :
      a.checkRules ports rules = .ok (some own) → getAddress s a.id = some current →
      Resumes ports s now (.listing a) (.list (.ok rules)) s (.awaits (.reading a current own))
  | unlisted (a : RouteAttempt) (rules : List RecipientRule) (current : AccountAddress)
      (s' : Store) (out : RouteOutcome) :
      a.checkRules ports rules = .ok none → getAddress s a.id = some current →
      Settles ports s a current now none s' out →
      Resumes ports s now (.listing a) (.list (.ok rules)) s' out
  /-- The rule is not the owned one any more. -/
  | changed (a : RouteAttempt) (current : AccountAddress) (own fresh : RecipientRule)
      (e : RecipientRuleError) : a.permitted ports fresh = false → e.retryable = false →
      Resumes ports s now (.reading a current own) (.read (.ok (some fresh))) s
        (.fails e (some current))
  | reread (a : RouteAttempt) (current : AccountAddress) (own : RecipientRule)
      (fresh : Option RecipientRule) (s' : Store) (out : RouteOutcome) :
      (∀ rule, fresh = some rule → a.permitted ports rule = true) →
      Settles ports s a current now fresh s' out →
      Resumes ports s now (.reading a current own) (.read (.ok fresh)) s' out
  | removed (a : RouteAttempt) (current : AccountAddress) (own : RecipientRule) :
      Resumes ports s now (.removing a current own) (.remove (.ok ()))
        (writeRoute s a.id .removed) (.returns (some current))
  | saved (a : RouteAttempt) (current : AccountAddress) (own : Option RecipientRule)
      (rule : RecipientRule) (s' : Store) (out : RouteOutcome) :
      Confirms ports s a current rule now s' out →
      Resumes ports s now (.saving a current own) (.save (.ok rule)) s' out

theorem resumeRoute_resumes {call : RouteAwait} {reply : RouteReply}
    (h : resumeRoute ports s now call reply = some (s', out)) :
    Resumes ports s now call reply s' out := by
  unfold resumeRoute at h
  split at h
  · next a e =>
    obtain ⟨rfl, rfl⟩ := Lts.some_pair_inj h
    exact .failed (.listing a) e
  · next a rules =>
    split at h
    · next e hcheck =>
      obtain ⟨rfl, rfl⟩ := Lts.some_pair_inj h
      exact .refused a rules e hcheck
    · next own hcheck =>
      split at h
      · next hgone =>
        obtain ⟨rfl, rfl⟩ := Lts.some_pair_inj h
        exact .gone a rules own hcheck hgone
      · next current hread =>
        split at h
        · next own =>
          obtain ⟨rfl, rfl⟩ := Lts.some_pair_inj h
          exact .found a rules current own hcheck hread
        · -- no rule of this name was listed: settle at once
          exact .unlisted a rules current s' out hcheck hread
            (settleRoute_settles (Option.some.inj h))
  · next a current own e =>
    obtain ⟨rfl, rfl⟩ := Lts.some_pair_inj h
    exact .failed (.reading a current own) e
  · next a current own fresh =>
    split at h
    · next hchanged =>
      obtain ⟨rfl, rfl⟩ := Lts.some_pair_inj h
      exact .changed a current own fresh _ (by simpa using hchanged) rfl
    · next hpermitted =>
      -- the rule read again is the one listed, up to its switch
      refine .reread a current own _ s' out (fun rule hrule => ?_)
        (settleRoute_settles (Option.some.inj h))
      obtain rfl := Option.some.inj hrule
      simpa using hpermitted
  · next a current own =>
    -- it was removed in between
    exact .reread a current own none s' out (fun _ hrule => absurd hrule (by simp))
      (settleRoute_settles (Option.some.inj h))
  · next a current own e =>
    obtain ⟨rfl, rfl⟩ := Lts.some_pair_inj h
    exact .failed (.removing a current own) e
  · next a current own =>
    obtain ⟨rfl, rfl⟩ := Lts.some_pair_inj h
    exact .removed a current own
  · next a current own e =>
    obtain ⟨rfl, rfl⟩ := Lts.some_pair_inj h
    exact .failed (.saving a current own) e
  · next a current own saved =>
    exact .saved a current own saved s' out (confirmRoute_confirms (Option.some.inj h))
  · exact absurd h (by simp)

theorem Confirms.writes {current : AccountAddress} {saved : RecipientRule}
    (h : Confirms ports s a current saved now s' out) : RouteWrites s s' := by
  cases h with
  | refused e => exact .one s a.id _
  | confirmed => exact (RouteWrites.one s a.id _).tail ⟨a.id, _, rfl⟩

theorem Settles.writes {current : AccountAddress} {own : Option RecipientRule}
    (h : Settles ports s a current now own s' out) : RouteWrites s s' := by
  cases h with
  | remove own => exact .refl
  | removed => exact .one s a.id _
  | confirm rule _ _ _ _ hconfirms => exact hconfirms.writes
  | save => exact .refl

/-- How an attempt begins. -/
inductive Begins (ports : RecipientRoutingPorts) (s : Store) (id : String) :
    Store → RouteOutcome → Prop where
  | gone : getAddress s id = none → Begins ports s id s (.returns none)
  | unconfigured (mailbox : AccountAddress) (e : RecipientRuleError) :
      getAddress s id = some mailbox → e.retryable = false →
      Begins ports s id s (.fails e (some mailbox))
  /-- The zone is the stored one, else that of the configured domain. -/
  | listing (mailbox : AccountAddress) (zoneId : String) :
      getAddress s id = some mailbox →
      (mailbox.routing.zoneId = some zoneId ∨ mailbox.routing.zoneId = none ∧
        ∃ domain ∈ ports.domains, domain.receive = true ∧ domain.name = mailbox.domain ∧
          domain.zoneId = zoneId) →
      Begins ports s id (writeRoute s id (.zone zoneId))
        (.awaits (.listing { id, mailbox, zoneId }))

theorem beginRoute_begins {id : String} (h : beginRoute ports s id = (s', out)) :
    Begins ports s id s' out := by
  unfold beginRoute at h
  split at h
  · next hgone =>
    obtain ⟨rfl, rfl⟩ := Prod.mk.inj h
    exact .gone hgone
  · next mailbox hread =>
    split at h
    · obtain ⟨rfl, rfl⟩ := Prod.mk.inj h
      exact .unconfigured mailbox _ hread rfl
    · next zoneId hzone =>
      obtain ⟨rfl, rfl⟩ := Prod.mk.inj h
      refine .listing mailbox zoneId hread ?_
      -- the zone is stored, or that of a configured domain
      rcases Option.or_eq_some_iff.mp (Option.orElse_eq_or.symm.trans hzone) with
        hstored | ⟨hnone, hconfigured⟩
      · exact .inl hstored
      · obtain ⟨domain, hfind, hid⟩ := Option.map_eq_some_iff.mp hconfigured
        have hdomain := List.find?_some hfind
        simp only [Bool.and_eq_true, decide_eq_true_eq] at hdomain
        exact .inr ⟨hnone, domain, List.mem_of_find?_eq_some hfind, hdomain.1, hdomain.2, hid⟩

theorem beginRoute_writes {id : String} (h : beginRoute ports s id = (s', out)) :
    RouteWrites s s' := by
  cases beginRoute_begins h with
  | gone => exact .refl
  | unconfigured => exact .refl
  | listing => exact .one s id _

theorem resumeRoute_writes {call : RouteAwait} {reply : RouteReply}
    (h : resumeRoute ports s now call reply = some (s', out)) : RouteWrites s s' := by
  cases resumeRoute_resumes h with
  | failed => exact .refl
  | refused => exact .refl
  | gone => exact .refl
  | found => exact .refl
  | unlisted _ _ _ _ _ _ _ hsettles => exact hsettles.writes
  | changed => exact .refl
  | reread _ _ _ _ _ _ _ hsettles => exact hsettles.writes
  | removed a => exact .one s a.id _
  | saved _ _ _ _ _ _ hconfirms => exact hconfirms.writes

/-- A pass works on an attempt by beginning the next row or by resuming the current one. -/
theorem RoutePass.attempt_cases {p : RoutePass} {reply : RouteReply} {row : DueRoute}
    {rest : List DueRoute} (h : p.attempt ports s reply = some (row, rest, s', out)) :
    (p.point = .between (row :: rest) ∧ beginRoute ports s row.mailbox_id = (s', out)) ∨
      ∃ call, p.point = .attempting row rest call ∧
        resumeRoute ports s p.nowMs call reply = some (s', out) := by
  unfold RoutePass.attempt at h
  split at h
  · next first others hpoint =>
    obtain ⟨rfl, heq⟩ := Lts.some_pair_inj h
    obtain ⟨rfl, hbegin⟩ := Prod.mk.inj heq
    exact .inl ⟨hpoint, hbegin⟩
  · next first others call hpoint =>
    obtain ⟨⟨s₂, out₂⟩, hresume, heq⟩ := Option.map_eq_some_iff.mp h
    obtain ⟨rfl, rfl, rfl, rfl⟩ : first = row ∧ others = rest ∧ s₂ = s' ∧
        out₂ = out := by
      simpa using heq
    exact .inr ⟨call, hpoint, hresume⟩
  · exact absurd h (by simp)

/-- What one step of a pass can do. -/
theorem RoutePass.step_cases {p : RoutePass} {reply : RouteReply} {next : Option RoutePass}
    (h : p.step ports s reply = some (s', next)) :
    (p.point = .selecting ∧ s' = s ∧ next = some (p.goto (.between (dueRoutes s p.nowMs)))) ∨
    (p.point = .between [] ∧ s' = s ∧ next = none) ∨
    ∃ row rest s₁ out, p.attempt ports s reply = some (row, rest, s₁, out) ∧
      s' = (p.proceed row rest (s₁, out)).1 ∧
        next = some (p.proceed row rest (s₁, out)).2 := by
  unfold RoutePass.step at h
  split at h
  · next hpoint =>
    obtain ⟨rfl, rfl⟩ := Lts.some_pair_inj h
    exact .inl ⟨hpoint, rfl, rfl⟩
  · next hpoint =>
    obtain ⟨rfl, rfl⟩ := Lts.some_pair_inj h
    exact .inr (.inl ⟨hpoint, rfl, rfl⟩)
  · obtain ⟨⟨row, rest, s₁, out⟩, hattempt, heq⟩ := Option.map_eq_some_iff.mp h
    obtain ⟨rfl, rfl⟩ := Prod.mk.inj heq
    exact .inr (.inr ⟨row, rest, s₁, out, hattempt, rfl, rfl⟩)

theorem RoutePass.attempt_writes {p : RoutePass} {reply : RouteReply} {row : DueRoute}
    {rest : List DueRoute} (h : p.attempt ports s reply = some (row, rest, s', out)) :
    RouteWrites s s' := by
  rcases RoutePass.attempt_cases h with ⟨-, hbegin⟩ | ⟨call, -, hresume⟩
  · exact beginRoute_writes hbegin
  · exact resumeRoute_writes hresume

/-- The pass changes the store by route writes only. -/
theorem RoutePass.step_writes {p : RoutePass} {reply : RouteReply} {next : Option RoutePass}
    (h : p.step ports s reply = some (s', next)) : RouteWrites s s' := by
  rcases RoutePass.step_cases h with ⟨-, rfl, -⟩ | ⟨-, rfl, -⟩ |
    ⟨row, rest, s₁, out, hattempt, rfl, -⟩
  · exact .refl
  · exact .refl
  · have hwrites := RoutePass.attempt_writes hattempt
    cases out with
    | awaits call => exact hwrites
    | returns seen => exact hwrites
    | fails error seen => exact hwrites.tail ⟨row.mailbox_id, _, rfl⟩

end routing

end Umail
