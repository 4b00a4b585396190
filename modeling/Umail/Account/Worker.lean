import Umail.Account.DueWork
import Umail.Account.RecipientRouting
import Umail.Mail.Dispatch

/-! # The account worker

  `makeAccountStoreRpc` and the alarm handler of `account/worker.ts`, and
  `runDueWork` of `account/due-work.ts`: calls of the store, due-work passes
  and restarts, interleaved at every point where one of them suspends. The
  alarm is one slot: setting it replaces what it held, and when it fires it is
  cleared and a pass starts.
-/

namespace Umail

open Relational

section worker
variable [Unicode]

/-! ### The RPC surface -/

structure MailDomainConfiguration where
  name : String
  receive : Bool
  send : Bool

/-- The calls that can change the store, with the ids they draw. The other
    methods only read. -/
inductive AccountStoreRpc where
  | acceptInbound (input : AcceptInboundInput)
  | registerInboundReceipt (input : RegisterInboundReceiptInput)
  | observeInboundForward (input : ObserveInboundForwardInput)
  | failInboundReceiptPolicy (receiptId : String) (reason : ReceiptPolicyError)
  | markThreadRead (handle : String) (isRead : Bool) (scope : MailboxScope) (nowIso : Instant)
  | softDeleteThread (handle : String) (scope : MailboxScope) (deletedAt : Instant)
  | createAddress (id localPart mailDomain : String) (displayName : Option String)
      (nowIso : Instant)
  | patchAddress (id : String) (patch : PatchAddressInput) (nowIso : Instant)
  | retireAddress (id : String) (nowIso : Instant)
  | retryAddressRouting (id : String) (nowIso : Instant)
  | setAddressForwarding (addressId : String) (forwardTo : Option String) (nowIso : Instant)
  | submitOutbound (input : SubmitOutboundInput) (ids : NewSubmissionIds)
  | decideApproval (input : DecideApprovalInput)

/-- A call that does not arm the alarm. -/
def call {α : Type} (r : Except StoreError (α × Store)) : Except StoreError (Store × Bool) :=
  r.map fun out => (out.2, false)

/-- Calls that can create due work arm the alarm for it. -/
def callAndArm {α : Type} (r : Except StoreError (α × Store)) :
    Except StoreError (Store × Bool) :=
  r.map fun out => (out.2, true)

/-- The store a call leaves, and whether the alarm is armed afterwards. -/
def AccountStoreRpc.run (domains : List MailDomainConfiguration) (s : Store) :
    AccountStoreRpc → Except StoreError (Store × Bool)
  | .acceptInbound input => call (Umail.acceptInbound s input)
  | .registerInboundReceipt input => callAndArm (.ok ((), Umail.registerInboundReceipt s input))
  | .observeInboundForward input => call (.ok (Umail.observeInboundForward s input))
  | .failInboundReceiptPolicy receiptId reason =>
    call (.ok ((), Umail.failInboundReceiptPolicy s receiptId reason))
  | .markThreadRead handle isRead scope nowIso =>
    call ((Umail.markThreadRead s handle isRead scope nowIso).map fun s' => ((), s'))
  | .softDeleteThread handle scope deletedAt =>
    call ((Umail.softDeleteThread s handle scope deletedAt).map fun s' => ((), s'))
  | .createAddress id localPart mailDomain displayName nowIso =>
    if domains.any fun domain => domain.name = mailDomain && domain.receive then
      callAndArm (Umail.createAddress s id localPart mailDomain displayName nowIso
        (domains.any fun domain => domain.name = mailDomain && domain.send))
    else .ok (s, false)
  | .patchAddress id patch nowIso => call (Umail.patchAddress s id patch nowIso)
  | .retireAddress id nowIso => callAndArm (Umail.retireAddress s id nowIso)
  | .retryAddressRouting id nowIso => callAndArm (Umail.retryAddressRouting s id nowIso)
  | .setAddressForwarding addressId forwardTo nowIso =>
    call (Umail.setAddressForwarding s addressId forwardTo nowIso)
  | .submitOutbound input ids => callAndArm (Umail.submitOutbound s input ids)
  | .decideApproval input => callAndArm (Umail.decideApproval s input)

/-! ### The pass -/

def SEND_BATCH_SIZE : Nat := 10

def REDRIVE_BATCH_SIZE : Nat := 50

structure DueWorkPorts where
  dispatch : DispatchPorts
  routes : RecipientRoutingPorts
  /-- The domains the RPC surface creates mailboxes in. -/
  domains : List MailDomainConfiguration

/-- The store with the provider calls and queue messages it led to, and the
    alarm. The clock reading of the last arming, and the clock reading and the
    failed steps of the last pass that ended, are kept for what is said about
    the alarm; no step reads them. -/
structure AccountState where
  mail : MailState
  /-- The receipts sent to the index queue, oldest first. -/
  published : List String
  alarm : Option Instant
  armedAt : Instant
  lastPass : Option (Instant × DueWork Bool)

def AccountState.withStore (w : AccountState) (store : Store) : AccountState :=
  { w with mail := { w.mail with store } }

def AccountState.arm (w : AccountState) (nowMs : Instant) (failed : Option (DueWork Bool)) :
    AccountState :=
  { w with alarm := armDueWork w.mail.store nowMs failed, armedAt := nowMs }

/-- Where a pass is suspended. -/
inductive DueWorkPoint where
  | expiring
  | selecting
  | sending (jobIds : List String)
  | dispatching (dispatch : Dispatch) (jobIds : List String)
  | settling
  | redriving
  | publishing (receiptIds : List String)
  | routing (pass : RoutePass)
  | arming

/-- A running `runDueWork(storage, ports, nowMs)`. -/
structure DueWorkPass where
  nowMs : Instant
  /-- The kinds of work whose step has failed. -/
  failed : DueWork Bool
  point : DueWorkPoint

/-- What a pass is resumed with. -/
inductive DueWorkReply where
  | unit
  /-- The step at hand fails; its cause is logged. -/
  | fails
  | dispatch (reply : DispatchReply)
  | route (reply : RouteReply)

namespace DueWorkPass

def start (nowMs : Instant) : DueWorkPass :=
  { nowMs, failed := fun _ => false, point := .expiring }

def goto (p : DueWorkPass) (point : DueWorkPoint) : DueWorkPass := { p with point }

/-- The step at hand has failed. -/
def fail (p : DueWorkPass) (source : DueWorkSource) : DueWorkPass :=
  { p with failed := fun other => if other = source then true else p.failed other }

/-- The route step, once it starts. -/
def routes (p : DueWorkPass) : DueWorkPass :=
  p.goto (.routing { nowMs := p.nowMs, point := .selecting })

/-- Expires approvals, sends ready jobs, settles abandoned claims, redrives
    stuck receipts, reconciles routes, and arms the alarm. The steps are
    independent and never fail the pass. -/
def step (ports : DueWorkPorts) (w : AccountState) (p : DueWorkPass) (reply : DueWorkReply) :
    Option (AccountState × Option DueWorkPass) :=
  match p.point, reply with
  | .expiring, .unit =>
    some (w.withStore (expireDueApprovals w.mail.store p.nowMs), some (p.goto .selecting))
  | .expiring, .fails => some (w, some ((p.fail .approvals).goto .selecting))
  | .selecting, .unit =>
    some (w, some (p.goto (.sending (readyJobIds w.mail.store SEND_BATCH_SIZE))))
  | .selecting, .fails => some (w, some ((p.fail .ready).goto .settling))
  | .sending [], .unit => some (w, some (p.goto .settling))
  | .sending (jobId :: rest), .unit =>
    some (w, some (p.goto (.dispatching { jobId, nowMs := p.nowMs, point := .reading } rest)))
  | .dispatching dispatch rest, .dispatch reply =>
    if dispatch.throws w.mail then none
    else (dispatch.step ports.dispatch w.mail reply).map fun (mail, next) =>
      ({ w with mail }, some (p.goto (match next with
        | some dispatch => .dispatching dispatch rest
        | none => .sending rest)))
  -- a failing job counts as the whole step failing
  | .dispatching _ rest, .fails => some (w, some ((p.fail .ready).goto (.sending rest)))
  | .settling, .unit =>
    some (w.withStore (settleAbandonedClaims w.mail.store p.nowMs), some (p.goto .redriving))
  | .settling, .fails => some (w, some ((p.fail .claims).goto .redriving))
  | .redriving, .unit =>
    let due := redriveDueInboundReceipts w.mail.store p.nowMs REDRIVE_BATCH_SIZE
    some (w.withStore due.2, some (p.goto (.publishing due.1)))
  | .redriving, .fails => some (w, some (p.fail .receipts).routes)
  | .publishing [], .unit => some (w, some p.routes)
  | .publishing (receiptId :: rest), .unit =>
    some ({ w with published := w.published ++ [receiptId] }, some (p.goto (.publishing rest)))
  | .publishing _, .fails => some (w, some (p.fail .receipts).routes)
  | .routing pass, .route reply =>
    (pass.step ports.routes w.mail.store reply).map fun (store, next) =>
      (w.withStore store, some (p.goto (match next with
        | some pass => .routing pass
        | none => .arming)))
  | .routing _, .fails => some (w, some ((p.fail .routes).goto .arming))
  | .arming, .unit =>
    some ({ w.arm p.nowMs (some p.failed) with lastPass := some (p.nowMs, p.failed) }, none)
  | _, _ => none

end DueWorkPass

/-- The kind of work a failing step belongs to, and where the pass goes on. -/
def DueWorkPoint.skip (nowMs : Instant) : DueWorkPoint → Option (DueWorkSource × DueWorkPoint)
  | .expiring => some (.approvals, .selecting)
  | .selecting => some (.ready, .settling)
  | .dispatching _ rest => some (.ready, .sending rest)
  | .settling => some (.claims, .redriving)
  | .redriving | .publishing _ => some (.receipts, .routing { nowMs, point := .selecting })
  | .routing _ => some (.routes, .arming)
  | .sending _ | .arming => none

/-- The steps of a pass, each with what it found. -/
inductive DueWorkPass.Moves (ports : DueWorkPorts) (w : AccountState) (p : DueWorkPass) :
    DueWorkReply → AccountState → Option DueWorkPass → Prop where
  | expires : p.point = .expiring →
      Moves ports w p .unit (w.withStore (expireDueApprovals w.mail.store p.nowMs))
        (some (p.goto .selecting))
  | selects : p.point = .selecting →
      Moves ports w p .unit w (some (p.goto (.sending (readyJobIds w.mail.store SEND_BATCH_SIZE))))
  | sent : p.point = .sending [] → Moves ports w p .unit w (some (p.goto .settling))
  | dispatches (jobId : String) (rest : List String) : p.point = .sending (jobId :: rest) →
      Moves ports w p .unit w
        (some (p.goto (.dispatching { jobId, nowMs := p.nowMs, point := .reading } rest)))
  | dispatched (dispatch : Dispatch) (rest : List String) (reply : DispatchReply)
      (mail : MailState) (next : Option Dispatch) : p.point = .dispatching dispatch rest →
      dispatch.throws w.mail = false →
      dispatch.step ports.dispatch w.mail reply = some (mail, next) →
      Moves ports w p (.dispatch reply) { w with mail } (some (p.goto (match next with
        | some dispatch => .dispatching dispatch rest
        | none => .sending rest)))
  | settles : p.point = .settling →
      Moves ports w p .unit (w.withStore (settleAbandonedClaims w.mail.store p.nowMs))
        (some (p.goto .redriving))
  | redrives : p.point = .redriving →
      Moves ports w p .unit
        (w.withStore (redriveDueInboundReceipts w.mail.store p.nowMs REDRIVE_BATCH_SIZE).2)
        (some (p.goto (.publishing
          (redriveDueInboundReceipts w.mail.store p.nowMs REDRIVE_BATCH_SIZE).1)))
  | published : p.point = .publishing [] → Moves ports w p .unit w (some p.routes)
  | publishes (receiptId : String) (rest : List String) :
      p.point = .publishing (receiptId :: rest) →
      Moves ports w p .unit { w with published := w.published ++ [receiptId] }
        (some (p.goto (.publishing rest)))
  | reconciles (pass : RoutePass) (reply : RouteReply) (store : Store) (next : Option RoutePass) :
      p.point = .routing pass → pass.step ports.routes w.mail.store reply = some (store, next) →
      Moves ports w p (.route reply) (w.withStore store) (some (p.goto (match next with
        | some pass => .routing pass
        | none => .arming)))
  | fails (source : DueWorkSource) (point : DueWorkPoint) :
      p.point.skip p.nowMs = some (source, point) →
      Moves ports w p .fails w (some ((p.fail source).goto point))
  | arms : p.point = .arming →
      Moves ports w p .unit
        { w.arm p.nowMs (some p.failed) with lastPass := some (p.nowMs, p.failed) } none

theorem DueWorkPass.moves_of_step {ports : DueWorkPorts} {w w' : AccountState} {p : DueWorkPass}
    {reply : DueWorkReply} {next : Option DueWorkPass}
    (h : p.step ports w reply = some (w', next)) :
    p.Moves ports w reply w' next := by
  -- one case per point and reply, in the order of the source
  unfold DueWorkPass.step at h
  split at h
  · next hpoint =>
    obtain ⟨rfl, rfl⟩ := Lts.some_pair_inj h
    exact .expires hpoint
  · next hpoint =>
    obtain ⟨rfl, rfl⟩ := Lts.some_pair_inj h
    exact .fails .approvals .selecting (by rw [hpoint]; rfl)
  · next hpoint =>
    obtain ⟨rfl, rfl⟩ := Lts.some_pair_inj h
    exact .selects hpoint
  · next hpoint =>
    obtain ⟨rfl, rfl⟩ := Lts.some_pair_inj h
    exact .fails .ready .settling (by rw [hpoint]; rfl)
  · next hpoint =>
    obtain ⟨rfl, rfl⟩ := Lts.some_pair_inj h
    exact .sent hpoint
  · next jobId rest hpoint =>
    obtain ⟨rfl, rfl⟩ := Lts.some_pair_inj h
    exact .dispatches jobId rest hpoint
  · next dispatch rest reply hpoint =>
    split at h
    · exact absurd h (by simp)
    · next hthrows =>
      obtain ⟨⟨mail, next⟩, hstep, heq⟩ := Option.map_eq_some_iff.mp h
      obtain ⟨rfl, rfl⟩ := Prod.mk.inj heq
      exact .dispatched dispatch rest reply mail next hpoint (by simpa using hthrows) hstep
  · next dispatch rest hpoint =>
    obtain ⟨rfl, rfl⟩ := Lts.some_pair_inj h
    exact .fails .ready (.sending rest) (by rw [hpoint]; rfl)
  · next hpoint =>
    obtain ⟨rfl, rfl⟩ := Lts.some_pair_inj h
    exact .settles hpoint
  · next hpoint =>
    obtain ⟨rfl, rfl⟩ := Lts.some_pair_inj h
    exact .fails .claims .redriving (by rw [hpoint]; rfl)
  · next hpoint =>
    obtain ⟨rfl, rfl⟩ := Lts.some_pair_inj h
    exact .redrives hpoint
  · next hpoint =>
    obtain ⟨rfl, rfl⟩ := Lts.some_pair_inj h
    -- the redrive itself failed
    exact .fails .receipts _ (by rw [hpoint]; rfl)
  · next hpoint =>
    obtain ⟨rfl, rfl⟩ := Lts.some_pair_inj h
    exact .published hpoint
  · next receiptId rest hpoint =>
    obtain ⟨rfl, rfl⟩ := Lts.some_pair_inj h
    exact .publishes receiptId rest hpoint
  · next receiptIds hpoint =>
    obtain ⟨rfl, rfl⟩ := Lts.some_pair_inj h
    -- the queue refused
    exact .fails .receipts _ (by rw [hpoint]; rfl)
  · next pass reply hpoint =>
    obtain ⟨⟨store, next⟩, hstep, heq⟩ := Option.map_eq_some_iff.mp h
    obtain ⟨rfl, rfl⟩ := Prod.mk.inj heq
    exact .reconciles pass reply store next hpoint hstep
  · next pass hpoint =>
    obtain ⟨rfl, rfl⟩ := Lts.some_pair_inj h
    exact .fails .routes .arming (by rw [hpoint]; rfl)
  · next hpoint =>
    obtain ⟨rfl, rfl⟩ := Lts.some_pair_inj h
    exact .arms hpoint
  · exact absurd h (by simp)

/-! ### The worker -/

/-- What runs in the worker. -/
inductive Activity where
  /-- A call, before it runs. -/
  | calling (rpc : AccountStoreRpc)
  /-- A call that has committed and is about to arm the alarm. -/
  | arming
  | passing (pass : DueWorkPass)
  /-- The startup, before the sending domains are configured. -/
  | configuring (sendNames : List String) (nowMs : Instant)
  /-- The startup, about to arm the alarm: it covers due work whose alarm was
      never set. -/
  | starting (nowMs : Instant)

/-- What an activity is resumed with: a pass with the outcome of its step, the
    arming of a call with the clock. -/
inductive WorkerReply where
  | unit
  | clock (nowMs : Instant)
  | work (reply : DueWorkReply)

def Activity.step (ports : DueWorkPorts) (w : AccountState) (a : Activity) (reply : WorkerReply) :
    Option (AccountState × Option Activity) :=
  match a, reply with
  | .calling rpc, .unit =>
    match rpc.run ports.domains w.mail.store with
    | .error _ => some (w, none)
    | .ok (store, arms) => some (w.withStore store, if arms then some .arming else none)
  | .arming, .clock nowMs => some (w.arm nowMs none, none)
  | .passing pass, .work reply =>
    (pass.step ports w reply).map fun (w', next) => (w', next.map .passing)
  | .configuring sendNames nowMs, .unit =>
    some (w.withStore (configureSendingDomains w.mail.store sendNames), some (.starting nowMs))
  | .starting nowMs, .unit => some (w.arm nowMs none, none)
  | _, _ => none

inductive WorkerLabel where
  | call (pid : Nat) (rpc : AccountStoreRpc)
  /-- The alarm fires. -/
  | fire (pid : Nat) (nowMs : Instant)
  | step (pid : Nat) (reply : WorkerReply)
  /-- The worker goes away with everything that runs in it, and starts again. -/
  | restart (pid : Nat) (sendNames : List String) (nowMs : Instant)

/-- The worker, from the migrated empty store on. -/
def accountWorker (ports : DueWorkPorts) :
    Lts.Machine (Lts.Pool AccountState Activity) WorkerLabel where
  init w :=
    w.shared = { mail := { store := Store.empty, sent := [] }, published := [], alarm := none
                 armedAt := 0, lastPass := none } ∧
      ∀ pid, w.procs pid = none
  step w
    | .call pid rpc =>
      if (w.procs pid).isSome then none
      else some { w with procs := w.set pid (some (.calling rpc)) }
    | .fire pid nowMs =>
      if (w.procs pid).isSome || w.shared.alarm.isNone then none
      else some { shared := { w.shared with alarm := none }
                  procs := w.set pid (some (.passing (DueWorkPass.start nowMs))) }
    | .step pid reply => (w.procs pid).bind fun a =>
      (a.step ports w.shared reply).map fun (shared, next) =>
        { shared, procs := w.set pid next }
    | .restart pid sendNames nowMs =>
      some { w with procs := fun q =>
        if q = pid then some (.configuring sendNames nowMs) else none }

end worker

end Umail
