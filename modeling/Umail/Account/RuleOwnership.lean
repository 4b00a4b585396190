import Umail.Account.Retirement

/-! # Rules are changed by their owner only

  The rule list of a zone belongs to the whole installation, and to the people
  who edit it in the dashboard. An attempt of `reconcileRecipientRoute` reads
  it, and some calls later creates, updates or deletes one rule.

  A run of an attempt (`AttemptRun`) begins and resumes in arbitrary stores
  and gets arbitrary replies: whatever commands, other passes, other workers
  and people do to the account and to the zone in the meantime is among them.
-/

namespace Umail

section ownership
variable [Unicode]

/-! ### The writes of an attempt -/

/-- The body of `createRule` and `updateRule`. -/
structure RuleBody where
  name : String
  enabled : Bool
  priority : Nat
  matchers : List RuleMatcher
  actions : List RuleAction

/-- The requests of the client that change a zone. -/
inductive RuleWrite where
  | createRule (zoneId : String) (body : RuleBody)
  | updateRule (zoneId ruleIdentifier : String) (body : RuleBody)
  | deleteRule (zoneId ruleIdentifier : String)

/-- The rule that a request changes. -/
def RuleWrite.target : RuleWrite → Option String
  | .createRule _ _ => none
  | .updateRule _ ruleIdentifier _ | .deleteRule _ ruleIdentifier => some ruleIdentifier

def ruleBody (address worker name : String) : RuleBody where
  name
  enabled := true
  priority := 0
  matchers := [{ type := "literal", field := some "to", value := some address }]
  actions := [{ type := "worker", value := some [worker] }]

/-- `save` of the client. -/
def saveRule (zoneId address worker name : String) : Option String → RuleWrite
  | none => .createRule zoneId (ruleBody address worker name)
  | some id => .updateRule zoneId id (ruleBody address worker name)

variable (ports : RecipientRoutingPorts)

/-- The write an attempt is suspended at, if any. -/
def RouteAwait.write : RouteAwait → Option RuleWrite
  | .listing _ => none
  | .reading _ _ _ => none
  | .removing a _ own => some (.deleteRule a.zoneId own.id)
  | .saving a _ own =>
    some (saveRule a.zoneId a.mailbox.address.val ports.workerName (a.owner ports)
      (own.map (·.id)))

/-! ### Runs of an attempt -/

/-- The calls of an attempt that have been answered, in order. -/
abbrev RouteTrace := List (RouteAwait × RouteReply)

/-- The attempt on the mailbox `id` has made the calls of the trace, and its
    last synchronous piece ended with the outcome. -/
inductive AttemptRun (id : String) : RouteTrace → RouteOutcome → Prop where
  | begins (s : Store) : AttemptRun id [] (beginRoute ports s id).2
  | resumes {trace : RouteTrace} {call : RouteAwait} {out : RouteOutcome} (s s' : Store)
      (now : Instant) (reply : RouteReply) :
      AttemptRun id trace (.awaits call) →
      resumeRoute ports s now call reply = some (s', out) →
      AttemptRun id (trace ++ [(call, reply)]) out

/-- Answers the calls of an attempt in one store. -/
def replay (s : Store) (now : Instant) :
    RouteTrace → RouteOutcome → List RouteReply → Option (RouteTrace × RouteOutcome)
  | trace, out, [] => some (trace, out)
  | trace, .awaits call, reply :: replies =>
    (resumeRoute ports s now call reply).bind fun answered =>
      replay s now (trace ++ [(call, reply)]) answered.2 replies
  | _, _, _ :: _ => none

/-- The rules that a reply shows. -/
def RouteReply.shown : RouteReply → List RecipientRule
  | .list (.ok rules) => rules
  | .read (.ok (some rule)) => [rule]
  | _ => []

/-- The rule `id` on the read of it that was made last. -/
def RouteTrace.lastRead (trace : RouteTrace) (id : String) : Option RecipientRule :=
  (trace.flatMap fun answered => answered.2.shown).reverse.find? (·.id = id)

/-! ### What a mailbox owns -/

namespace RouteAttempt

variable (a : RouteAttempt)

/-- The rule delivers the address of the mailbox, and nothing else, to this worker. -/
structure Exact (rule : RecipientRule) : Prop where
  matcher : ∃ matcher, rule.matchers = some [matcher] ∧ matcher.type = "literal" ∧
    matcher.field = some "to" ∧ matcher.value = some a.mailbox.address.val
  action : ∃ action, rule.actions = some [action] ∧ action.type = "worker" ∧
    action.value = some [ports.workerName]

/-- The rule carries the owner name of the mailbox, or is the stored seed of its address. -/
def Claims (rule : RecipientRule) : Prop :=
  rule.name = some (ports.ownerPrefix ++ a.id) ∨
    ∃ seed, ports.legacySeeds.find? (fun seed => seed.zoneId = a.zoneId &&
      seed.address = a.mailbox.address.val) = some seed ∧ rule.id = seed.id

/-- The rule is the mailbox's own. -/
def Owns (rule : RecipientRule) : Prop := a.Exact ports rule ∧ a.Claims ports rule

/-- The listed rule `own` is the only one that could be the mailbox's, by its
    stored id, its name or its seed. It is the mailbox's own, and no other
    rule of the list addresses the mailbox. -/
structure Snapshot (rules : List RecipientRule) (own : Option RecipientRule) : Prop where
  candidates : a.candidates ports rules = own.toList
  owned : ∀ rule, own = some rule → a.Owns ports rule
  alone : ∀ rule ∈ rules, ruleAddresses rule a.mailbox.address.val = true →
    some rule.id = own.map (·.id)

end RouteAttempt

/-- What an attempt has to have read before it makes a write. -/
inductive Warranted (a : RouteAttempt) : RouteTrace → RuleWrite → Prop where
  /-- The mailbox is retired and its rule was read as its own. -/
  | remove (rules : List RecipientRule) (current : AccountAddress) (own fresh : RecipientRule) :
      a.Snapshot ports rules (some own) → current.retiredAt.isSome = true →
      a.Owns ports fresh →
      Warranted a [(.listing a, .list (.ok rules)),
        (.reading a current own, .read (.ok (some fresh)))]
        (.deleteRule a.zoneId fresh.id)
  /-- The mailbox is in use and its rule was read as its own. -/
  | update (rules : List RecipientRule) (current : AccountAddress) (own fresh : RecipientRule) :
      a.Snapshot ports rules (some own) → current.retiredAt = none → a.Owns ports fresh →
      Warranted a [(.listing a, .list (.ok rules)),
        (.reading a current own, .read (.ok (some fresh)))]
        (.updateRule a.zoneId fresh.id
          (ruleBody a.mailbox.address.val ports.workerName (a.owner ports)))
  /-- No rule could be the mailbox's, and none addresses it. -/
  | create (rules : List RecipientRule) :
      a.Snapshot ports rules none →
      Warranted a [(.listing a, .list (.ok rules))]
        (.createRule a.zoneId (ruleBody a.mailbox.address.val ports.workerName (a.owner ports)))
  /-- The mailbox's own rule was listed, and has disappeared since. -/
  | recreate (rules : List RecipientRule) (current : AccountAddress) (own : RecipientRule) :
      a.Snapshot ports rules (some own) →
      Warranted a [(.listing a, .list (.ok rules)), (.reading a current own, .read (.ok none))]
        (.createRule a.zoneId (ruleBody a.mailbox.address.val ports.workerName (a.owner ports)))

/-! ### The checks of the code -/

variable {ports} {a : RouteAttempt} {rules : List RecipientRule} {own : Option RecipientRule}

omit [Unicode] in
theorem RuleMatcher.addresses_iff {matcher : RuleMatcher} {address : String} :
    matcher.addresses address = true ↔
      matcher.type = "literal" ∧ matcher.field = some "to" ∧ matcher.value = some address := by
  simp [RuleMatcher.addresses, and_assoc]

theorem ruleMatches_iff {rule : RecipientRule} :
    ruleMatches rule a.mailbox.address.val ports.workerName = true ↔ a.Exact ports rule := by
  unfold ruleMatches
  rw [Bool.and_eq_true]
  constructor
  · intro ⟨hmatcher, haction⟩
    split at hmatcher
    · next matcher hmatchers =>
      split at haction
      · next action hactions =>
        refine ⟨⟨matcher, hmatchers, RuleMatcher.addresses_iff.mp hmatcher⟩,
          action, hactions, by simpa using haction⟩
      · exact absurd haction (by simp)
    · exact absurd hmatcher (by simp)
  · intro ⟨⟨matcher, hmatchers, hmatcher⟩, action, hactions, haction⟩
    rw [hmatchers, hactions]
    exact ⟨RuleMatcher.addresses_iff.mpr hmatcher, by simpa using haction⟩

/-- `permitted` tests the ownership. -/
theorem RouteAttempt.permitted_iff {rule : RecipientRule} :
    a.permitted ports rule = true ↔ a.Owns ports rule := by
  unfold RouteAttempt.permitted RouteAttempt.Owns
  rw [Bool.and_eq_true, ruleMatches_iff]
  refine and_congr_right fun _ => ?_
  simp only [Bool.or_eq_true, decide_eq_true_eq, RouteAttempt.Claims]
  refine or_congr Iff.rfl ?_
  rw [eq_comm, Option.map_eq_some_iff]
  exact exists_congr fun seed => and_congr Iff.rfl eq_comm

/-- A list that passes the checks shows the mailbox's own rule, or none. -/
theorem RouteAttempt.checkRules_snapshot (h : a.checkRules ports rules = .ok own) :
    a.Snapshot ports rules own := by
  unfold RouteAttempt.checkRules at h
  simp only at h
  split at h
  · exact absurd h (by simp)
  · next hone =>
    split at h
    · exact absurd h (by simp)
    · next hpermitted =>
      split at h
      · exact absurd h (by simp)
      · next halone =>
        obtain rfl := Except.ok.inj h
        -- there is at most one candidate
        have hcandidates : a.candidates ports rules = (a.candidates ports rules).head?.toList := by
          rcases hlist : a.candidates ports rules with _ | ⟨first, others⟩
          · rfl
          · rw [hlist] at hone
            obtain rfl : others = [] := by simpa using hone
            rfl
        refine ⟨hcandidates, ?_, ?_⟩
        · intro rule hown
          rw [hown] at hpermitted
          exact permitted_iff.mp (by simpa using hpermitted)
        · -- every other rule for the address would have failed the check
          intro rule hrule haddress
          by_contra hne
          refine halone (List.any_eq_true.mpr ⟨rule, hrule, ?_⟩)
          simp [hne, haddress]

/-! ### Where an attempt can be suspended -/

variable (ports) in
/-- The calls of an attempt, each with the trace that leads to it. -/
inductive Reached (a : RouteAttempt) : RouteTrace → RouteAwait → Prop where
  | listing : Reached a [] (.listing a)
  | reading (rules : List RecipientRule) (current : AccountAddress) (own : RecipientRule) :
      a.Snapshot ports rules (some own) →
      Reached a [(.listing a, .list (.ok rules))] (.reading a current own)
  | removing (rules : List RecipientRule) (current : AccountAddress) (own fresh : RecipientRule) :
      a.Snapshot ports rules (some own) → current.retiredAt.isSome = true →
        a.Owns ports fresh →
      Reached a
        [(.listing a, .list (.ok rules)), (.reading a current own, .read (.ok (some fresh)))]
        (.removing a current fresh)
  | updating (rules : List RecipientRule) (current : AccountAddress) (own fresh : RecipientRule) :
      a.Snapshot ports rules (some own) → current.retiredAt = none → a.Owns ports fresh →
      Reached a
        [(.listing a, .list (.ok rules)), (.reading a current own, .read (.ok (some fresh)))]
        (.saving a current (some fresh))
  | creating (rules : List RecipientRule) (current : AccountAddress) :
      a.Snapshot ports rules none →
      Reached a [(.listing a, .list (.ok rules))] (.saving a current none)
  | recreating (rules : List RecipientRule) (current : AccountAddress) (own : RecipientRule) :
      a.Snapshot ports rules (some own) →
      Reached a [(.listing a, .list (.ok rules)), (.reading a current own, .read (.ok none))]
        (.saving a current none)

variable {s s' : Store} {now : Instant} {id : String}

/-- **Step.** From one call to the next. -/
theorem Reached.resume {trace : RouteTrace} {call next : RouteAwait} {reply : RouteReply}
    (h : Reached ports a trace call)
    (hresume : resumeRoute ports s now call reply = some (s', .awaits next)) :
    Reached ports a (trace ++ [(call, reply)]) next := by
  cases resumeRoute_resumes hresume with
  | found _ rules current own hcheck hread =>
    obtain ⟨⟩ := h
    exact .reading rules current own (RouteAttempt.checkRules_snapshot hcheck)
  | unlisted _ rules current _ _ hcheck hread hsettles =>
    obtain ⟨⟩ := h
    -- no rule to read, and so none to remove either
    rcases hsettles.awaits with ⟨rule, hown, -⟩ | ⟨-, rfl⟩
    · exact absurd hown (by simp)
    · exact .creating rules current (RouteAttempt.checkRules_snapshot hcheck)
  | reread _ current own fresh _ _ hpermitted hsettles =>
    obtain ⟨⟩ := h
    next rules hsnapshot =>
    have howns : ∀ rule, fresh = some rule → a.Owns ports rule := fun rule hrule =>
      RouteAttempt.permitted_iff.mp (hpermitted rule hrule)
    rcases hsettles.awaits with ⟨rule, rfl, hret, rfl⟩ | ⟨hret, rfl⟩
    · exact .removing rules current own rule hsnapshot hret (howns rule rfl)
    · cases fresh with
      | some rule => exact .updating rules current own rule hsnapshot hret (howns rule rfl)
      | none => exact .recreating rules current own hsnapshot
  | saved _ _ _ _ _ _ hconfirms => nomatch hconfirms

variable (ports) in
/-- The constants of an attempt are those of its mailbox, as it was read when
    the attempt began. -/
structure RouteAttempt.Of (id : String) (a : RouteAttempt) : Prop where
  id : a.id = id
  mailbox : ∃ s, getAddress s a.id = some a.mailbox
  zone : a.mailbox.routing.zoneId = some a.zoneId ∨ a.mailbox.routing.zoneId = none ∧
    ∃ domain ∈ ports.domains, domain.receive = true ∧ domain.name = a.mailbox.domain ∧
      domain.zoneId = a.zoneId

theorem beginRoute_awaits {call : RouteAwait} (h : (beginRoute ports s id).2 = .awaits call) :
    ∃ a, RouteAttempt.Of ports id a ∧ call = .listing a := by
  obtain ⟨s', hbegin⟩ : ∃ s', beginRoute ports s id = (s', .awaits call) :=
    ⟨_, by rw [← h]⟩
  cases beginRoute_begins hbegin with
  | listing mailbox zoneId hread hzone => exact ⟨_, ⟨rfl, ⟨s, hread⟩, hzone⟩, rfl⟩

/-- **Run.** A suspended attempt is where its trace leads. -/
theorem AttemptRun.reached {trace : RouteTrace} {out : RouteOutcome}
    (h : AttemptRun ports id trace out) {call : RouteAwait} (hout : out = .awaits call) :
    ∃ a, RouteAttempt.Of ports id a ∧ Reached ports a trace call := by
  induction h generalizing call with
  | begins s =>
    obtain ⟨a, hof, rfl⟩ := beginRoute_awaits hout
    exact ⟨a, hof, .listing⟩
  | resumes s s' now reply _ hresume ih =>
    subst hout
    obtain ⟨a, hof, hreached⟩ := ih rfl
    exact ⟨a, hof, hreached.resume hresume⟩

/-! ### What is written -/

theorem Reached.warranted {trace : RouteTrace} {call : RouteAwait} {write : RuleWrite}
    (h : Reached ports a trace call) (hwrite : call.write ports = some write) :
    Warranted ports a trace write := by
  cases h with
  | listing => exact absurd hwrite (by simp [RouteAwait.write])
  | reading => exact absurd hwrite (by simp [RouteAwait.write])
  | removing rules current own fresh hsnapshot hret howns =>
    obtain rfl := Option.some.inj hwrite
    exact .remove rules current own fresh hsnapshot hret howns
  | updating rules current own fresh hsnapshot hret howns =>
    obtain rfl := Option.some.inj hwrite
    exact .update rules current own fresh hsnapshot hret howns
  | creating rules current hsnapshot =>
    obtain rfl := Option.some.inj hwrite
    exact .create rules hsnapshot
  | recreating rules current own hsnapshot =>
    obtain rfl := Option.some.inj hwrite
    exact .recreate rules current own hsnapshot

/-- The rule a warranted write changes was the mailbox's own when it was last read. -/
theorem Warranted.target {trace : RouteTrace} {write : RuleWrite}
    (h : Warranted ports a trace write) {target : String} (htarget : write.target = some target) :
    ∃ rule, trace.lastRead target = some rule ∧ a.Owns ports rule := by
  cases h with
  | remove rules current own fresh _ _ howns =>
    obtain rfl := Option.some.inj htarget
    exact ⟨fresh, by simp [RouteTrace.lastRead, RouteReply.shown], howns⟩
  | update rules current own fresh _ _ howns =>
    obtain rfl := Option.some.inj htarget
    exact ⟨fresh, by simp [RouteTrace.lastRead, RouteReply.shown], howns⟩
  | create => exact absurd htarget (by simp [RuleWrite.target])
  | recreate => exact absurd htarget (by simp [RuleWrite.target])

/-- An attempt has made no write before the call it is suspended at. -/
theorem Reached.unwritten {trace : RouteTrace} {call : RouteAwait}
    (h : Reached ports a trace call) : ∀ answered ∈ trace, answered.1.write ports = none := by
  cases h <;> simp [RouteAwait.write]

/-- **Rules are changed by their owner only.** The write an attempt makes is
    its only one, and one that its reads warrant. The rule it changes, if any,
    was the mailbox's own on the read of it that was made last; a rule is
    created only when none was listed that could be the mailbox's, or the one
    that was has disappeared, and no other addresses the mailbox. -/
theorem rules_changed_by_owner_only (ports : RecipientRoutingPorts) (id : String)
    {trace : RouteTrace} {call : RouteAwait} {write : RuleWrite}
    (hrun : AttemptRun ports id trace (.awaits call)) (hwrite : call.write ports = some write) :
    ∃ a, RouteAttempt.Of ports id a ∧ Warranted ports a trace write ∧
      (∀ target, write.target = some target →
        ∃ rule, trace.lastRead target = some rule ∧ a.Owns ports rule) ∧
      ∀ answered ∈ trace, answered.1.write ports = none := by
  obtain ⟨a, hof, hreached⟩ := hrun.reached rfl
  have hwarranted := hreached.warranted hwrite
  exact ⟨a, hof, hwarranted, fun _ => hwarranted.target, hreached.unwritten⟩

/-! ### The attempts of a pass -/

/-- The attempt a pass is suspended in, if any, is a run on the mailbox of its row. -/
def RoutePass.Runs (ports : RecipientRoutingPorts) (p : RoutePass) : Prop :=
  ∀ row rest call, p.point = .attempting row rest call →
    ∃ trace, AttemptRun ports row.mailbox_id trace (.awaits call)

theorem RoutePass.Runs.step {p q : RoutePass} {reply : RouteReply} (hp : p.Runs ports)
    (h : p.step ports s reply = some (s', some q)) : q.Runs ports := by
  intro row rest call hpoint
  rcases RoutePass.step_cases h with ⟨-, -, hq⟩ | ⟨-, -, hq⟩ |
    ⟨row', rest', s₁, out, hattempt, -, hq⟩
  · obtain rfl := Option.some.inj hq
    exact absurd hpoint (by simp [RoutePass.goto])
  · exact absurd hq (by simp)
  · obtain rfl := Option.some.inj hq
    -- only a further call leaves the pass suspended
    obtain ⟨rfl, rfl, rfl⟩ : row' = row ∧ rest' = rest ∧ out = .awaits call := by
      cases out <;> simp_all [RoutePass.proceed, RoutePass.goto]
    rcases RoutePass.attempt_cases hattempt with ⟨-, hbegin⟩ |
      ⟨previous, hprevious, hresume⟩
    · have hout : (beginRoute ports s row'.mailbox_id).2 = .awaits call := by rw [hbegin]
      exact ⟨[], hout ▸ AttemptRun.begins s⟩
    · obtain ⟨trace, hrun⟩ := hp _ _ _ hprevious
      exact ⟨_, hrun.resumes s s₁ p.nowMs reply hresume⟩

/-- Every attempt of every pass is such a run. -/
theorem reconciling_runs (ports : RecipientRoutingPorts) :
    (reconciling ports).Valid (fun _ => True) (fun _ p => p.Runs ports) fun _ _ => True where
  init _ _ := trivial
  symm _ _ _ := trivial
  env _ _ _ _ _ := ⟨trivial, fun _ hp => hp⟩
  start _ _ _ := ⟨fun _ _ _ hpoint => absurd hpoint (by simp [reconciling]), fun _ _ => trivial⟩
  step _ _ _ _ _ _ hp hs :=
    ⟨trivial, fun _ hq => RoutePass.Runs.step hp (by rw [← hq]; exact hs)⟩
  other _ _ _ _ _ _ _ _ hq _ _ := ⟨hq, fun _ _ => trivial⟩

theorem AttemptRun.replayed {trace trace' : RouteTrace} {out out' : RouteOutcome}
    {replies : List RouteReply} (h : AttemptRun ports id trace out)
    (hreplay : replay ports s now trace out replies = some (trace', out')) :
    AttemptRun ports id trace' out' := by
  induction replies generalizing trace out with
  | nil =>
    obtain ⟨rfl, rfl⟩ : trace = trace' ∧ out = out' := by simpa [replay] using hreplay
    exact h
  | cons reply replies ih =>
    cases out with
    | awaits call =>
      obtain ⟨⟨s₁, out₁⟩, hresume, hrest⟩ := Option.bind_eq_some_iff.mp hreplay
      exact ih (h.resumes s s₁ now reply hresume) hrest
    | returns seen => exact absurd hreplay (by simp [replay])
    | fails error seen => exact absurd hreplay (by simp [replay])

end ownership

/-! ### An adopted rule

  The rule of the sample mailbox has been switched off; its attempt reads it
  and switches it on again. -/

namespace Sample

def routed : Store :=
  Store.empty.exec (.createAddress "mailbox-1" "agent" "example.com" none 10 true)

def switchedOff : RecipientRule where
  id := "rule-1"
  name := some "umail/mailbox-1"
  enabled := some false
  matchers := some [{ type := "literal", field := some "to", value := some "agent@example.com" }]
  actions := some [{ type := "worker", value := some ["worker"] }]

def ownRuleReplies : List RouteReply :=
  [.list (.ok [switchedOff]), .read (.ok (some switchedOff))]

end Sample

open Sample in
theorem rules_changed_by_owner_only_update :
    ∃ trace write a, RouteAttempt.Of routingPorts "mailbox-1" a ∧
      Warranted routingPorts a trace write ∧
      (∀ target, write.target = some target →
        ∃ rule, trace.lastRead target = some rule ∧ a.Owns routingPorts rule) ∧
      ∀ answered ∈ trace, answered.1.write routingPorts = none := by
  have hfire : ((replay routingPorts routed 20 [] (beginRoute routingPorts routed "mailbox-1").2
      ownRuleReplies).any fun ended => match ended.2 with
        | .awaits call => (call.write routingPorts).any (·.target = some "rule-1")
        | _ => false) = true := by decide +kernel
  obtain ⟨⟨trace, out⟩, hreplay, hcall⟩ := (Option.any_eq_true _ _).mp hfire
  split at hcall
  · next call hout =>
    obtain ⟨write, hwrite, -⟩ := (Option.any_eq_true _ _).mp hcall
    obtain rfl : out = .awaits call := hout
    obtain ⟨a, h⟩ := rules_changed_by_owner_only routingPorts "mailbox-1"
      ((AttemptRun.begins routed).replayed hreplay) hwrite
    exact ⟨trace, write, a, h⟩
  · exact absurd hcall (by simp)

end Umail
