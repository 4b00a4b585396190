import Umail.Account.RecipientRouting
import Umail.Framework.Json

/-! # The recipient catch-all cutover

  `recipientCutover` of `apps/cli/src/recipient-cutover.ts`. It inspects the
  rules of all receiving zones and the catch-all of one of them, and disables
  that catch-all when every mailbox is covered by a rule of its own.

  Rule lists and the catch-all belong to people and other programs as well,
  so each call may answer anything: a run is a function of the answers.
  Disabling the catch-all is the only write.
-/

namespace Umail

/-! ### Configuration, mailboxes and rules -/

structure ReceivingDomain where
  name : String
  receive : Bool
  zoneId : String

structure RoutingConfiguration where
  workerName : String
  ownerPrefix : String
  domains : List ReceivingDomain

structure AddressRouting where
  state : RoutingState
  ruleId : Option String
  zoneId : Option String

/-- A mailbox as the API lists it. -/
structure CutoverMailbox where
  id : String
  address : String
  domain : String
  retiredAt : Option Instant
  routing : AddressRouting

/-- A rule of a zone. The id may be absent (`none`) or `null` (`some none`);
    an absent one equals no stored id. -/
structure GetRuleResponse where
  id : Option (Option String)
  name : Option String
  enabled : Option Bool
  matchers : Option (List RuleMatcher)
  actions : Option (List RuleAction)

/-- The catch-all of a zone, as a record. -/
abbrev CatchAllResponse := Json.Data

structure RecipientCutoverError where
  message : String
  deriving DecidableEq

def cutoverRefusal {α : Type} (message : String) : Except RecipientCutoverError α :=
  .error { message }

/-- The answers of the client during one run; the catch-all may be read a
    second time. -/
structure CutoverCloudflare where
  list : String → Except RecipientCutoverError (List GetRuleResponse)
  catchAll : String → Except RecipientCutoverError CatchAllResponse
  freshCatchAll : String → Except RecipientCutoverError CatchAllResponse
  disableCatchAll : String → Except RecipientCutoverError CatchAllResponse

structure CutoverInput where
  zoneId : String
  execute : Bool
  configuration : RoutingConfiguration
  mailboxes : List CutoverMailbox

/-! ### Coverage -/

structure CutoverCoverage where
  address : String
  zoneId : Option String
  ruleId : Option String
  ready : Bool
  inCutoverZone : Bool

section coverage
variable (configuration : RoutingConfiguration) (mailbox : CutoverMailbox)

/-- The filter that picks `matches`. -/
def ruleCovers (rule : GetRuleResponse) : Bool :=
  rule.id = some mailbox.routing.ruleId &&
  rule.name = some (configuration.ownerPrefix ++ mailbox.id) &&
  rule.enabled = some true &&
  (match rule.matchers with
    | some [matcher] => matcher.addresses mailbox.address
    | _ => false) &&
  match rule.actions with
  | some [action] => action.type = "worker" && action.value = some [configuration.workerName]
  | _ => false

/-- Some matcher of the rule is the literal address. -/
def GetRuleResponse.addresses (rule : GetRuleResponse) (address : String) : Bool :=
  (rule.matchers.getD []).any (·.addresses address)

/-- One of the rules that make `foreign` hold. -/
def ruleForeign (rule : GetRuleResponse) : Bool :=
  decide (rule.id ≠ some mailbox.routing.ruleId) && rule.addresses mailbox.address

def domainConfigured (domain : ReceivingDomain) : Bool :=
  domain.receive && domain.name = mailbox.domain && some domain.zoneId = mailbox.routing.zoneId

def mailboxCoverage (rulesByZone : List (String × List GetRuleResponse)) (zoneId : String) :
    CutoverCoverage :=
  let mailboxZone := mailbox.routing.zoneId
  let rules := (mailboxZone.bind fun zone => rulesByZone.lookup zone).getD []
  let coverers := rules.filter (ruleCovers configuration mailbox)
  let foreign := rules.any (ruleForeign mailbox)
  let configured := configuration.domains.any (domainConfigured mailbox)
  { address := mailbox.address
    zoneId := mailboxZone
    ruleId := mailbox.routing.ruleId
    ready := configured && mailbox.routing.state = .ready && coverers.length = 1 && !foreign
    inCutoverZone := mailboxZone = some zoneId }

end coverage

/-! ### The catch-all -/

/-- `value?.name` -/
def memberOf (name : String) : Option Json.Data → Option Json.Data
  | some (.object members) => members.lookup name
  | _ => none

/-- `values[0]`, where `values?.length === 1`. -/
def onlyItem : Option Json.Data → Option Json.Data
  | some (.array [item]) => some item
  | _ => none

def isBool (b : Bool) : Option Json.Data → Bool
  | some (.bool b') => b = b'
  | _ => false

def isString (s : String) : Option Json.Data → Bool
  | some (.string s') => s = s'
  | _ => false

/-- Disabled, with one action that drops the mail. -/
def catchAllDisabled (catchAll : CatchAllResponse) : Bool :=
  isBool false (memberOf "enabled" catchAll) &&
  isString "drop" (memberOf "type" (onlyItem (memberOf "actions" catchAll)))

/-- Enabled, for all mail, with one action: this worker. -/
def catchAllOwned (workerName : String) (catchAll : CatchAllResponse) : Bool :=
  let action := onlyItem (memberOf "actions" catchAll)
  isBool true (memberOf "enabled" catchAll) &&
  isString "all" (memberOf "type" (onlyItem (memberOf "matchers" catchAll))) &&
  isString "worker" (memberOf "type" action) &&
  isString workerName (onlyItem (memberOf "value" action))

/-! ### The plan and its execution -/

/-- The change of an owned catch-all: `{ enabled, actions: [{ type }] }`. -/
structure CatchAllChange where
  enabled : Bool
  actions : List String

structure CatchAllPlan where
  owned : Bool
  alreadyDisabled : Bool
  change : Option CatchAllChange

structure CutoverPlan where
  installation : String
  worker : String
  zoneId : String
  mode : String
  ready : Bool
  coverage : List CutoverCoverage
  catchAll : CatchAllPlan
  nextStep : Option String

def CUTOVER_NEXT_STEP : String :=
  "Set UMAIL_LEGACY_CATCH_ALL=false in the existing installation's vault (agents secrets set " ++
    "UMAIL_LEGACY_CATCH_ALL --env prod for uMail), then dry-run its next deploy. The retained " ++
    "catch-all state may be relinquished; it must not be recreated."

/-- The zones of the receiving domains, each once. -/
def receivingZones (configuration : RoutingConfiguration) : List String :=
  keepFirst id [] ((configuration.domains.filter (·.receive)).map (·.zoneId))

/-- The plan, from what the reads have answered. -/
def cutoverPlan (input : CutoverInput) (rulesByZone : List (String × List GetRuleResponse))
    (catchAll : CatchAllResponse) : CutoverPlan :=
  let configuration := input.configuration
  let coverage := (input.mailboxes.filter (·.retiredAt.isNone)).map fun mailbox =>
    mailboxCoverage configuration mailbox rulesByZone input.zoneId
  let disabled := catchAllDisabled catchAll
  let owned := catchAllOwned configuration.workerName catchAll
  { installation := configuration.ownerPrefix
    worker := configuration.workerName
    zoneId := input.zoneId
    mode := if input.execute then "execute" else "dry-run"
    ready := !coverage.isEmpty && coverage.all (·.ready) && (owned || disabled)
    coverage
    catchAll :=
      { owned
        alreadyDisabled := disabled
        change := if owned then some { enabled := false, actions := ["drop"] } else none }
    nextStep := none }

/-- `configuration.domains.some` of the first check. -/
def zoneReceives (configuration : RoutingConfiguration) (zoneId : String) : Bool :=
  configuration.domains.any fun domain => domain.receive && domain.zoneId = zoneId

/-- `rulesByZone` -/
def listRules (zones : List String) (cloudflare : CutoverCloudflare) :
    Except RecipientCutoverError (List (String × List GetRuleResponse)) :=
  zones.mapM fun zone => (cloudflare.list zone).map fun rules => (zone, rules)

/-- Everything up to the plan: the calls that only read. -/
def inspectCutover (input : CutoverInput) (cloudflare : CutoverCloudflare) :
    Except RecipientCutoverError (CutoverPlan × CatchAllResponse) :=
  if !zoneReceives input.configuration input.zoneId then
    cutoverRefusal "The zone is outside this installation's receiving manifest."
  else do
    let rulesByZone ← listRules (receivingZones input.configuration) cloudflare
    let catchAll ← cloudflare.catchAll input.zoneId
    return (cutoverPlan input rulesByZone catchAll, catchAll)

/-- The zones whose catch-all a run has disabled, and how it ended. -/
structure CutoverRun where
  writes : List String
  outcome : Except RecipientCutoverError CutoverPlan

def recipientCutover (input : CutoverInput) (cloudflare : CutoverCloudflare) : CutoverRun :=
  match inspectCutover input cloudflare with
  | .error e => ⟨[], .error e⟩
  | .ok (plan, catchAll) =>
    let done := { plan with nextStep := some CUTOVER_NEXT_STEP }
    if !input.execute then ⟨[], .ok plan⟩
    else if !plan.ready then
      ⟨[], cutoverRefusal
        ("Cutover refused: every non-retired mailbox must be ready with verified ownership, and " ++
          "the catch-all must belong to this installation. Run without --execute to inspect " ++
          "coverage.")⟩
    else if plan.catchAll.owned then
      match cloudflare.freshCatchAll input.zoneId with
      | .error e => ⟨[], .error e⟩
      | .ok fresh =>
        if fresh.text ≠ catchAll.text then
          ⟨[], cutoverRefusal
            ("The catch-all changed during verification; no change was made. Run the dry-run " ++
              "again.")⟩
        else
          match cloudflare.disableCatchAll input.zoneId with
          | .error e => ⟨[input.zoneId], .error e⟩
          | .ok result =>
            if !catchAllDisabled result then
              ⟨[input.zoneId], cutoverRefusal
                ("Cloudflare did not confirm catch-all disablement. Inspect it before changing " ++
                  "the installation's vault.")⟩
            else ⟨[input.zoneId], .ok done⟩
    else ⟨[], .ok done⟩

/-! ### What a covered mailbox has -/

/-- The rule is enabled, carries the stored id and the owner name of the
    mailbox, and delivers its address and nothing else to this worker. -/
structure RuleDelivers (configuration : RoutingConfiguration) (mailbox : CutoverMailbox)
    (rule : GetRuleResponse) : Prop where
  id : rule.id = some mailbox.routing.ruleId
  name : rule.name = some (configuration.ownerPrefix ++ mailbox.id)
  enabled : rule.enabled = some true
  matcher : ∃ matcher, rule.matchers = some [matcher] ∧ matcher.addresses mailbox.address = true
  action : ∃ action, rule.actions = some [action] ∧ action.type = "worker" ∧
    action.value = some [configuration.workerName]

/-- Mail to the mailbox reaches the worker without the catch-all. -/
structure MailboxCovered (configuration : RoutingConfiguration) (cloudflare : CutoverCloudflare)
    (mailbox : CutoverMailbox) : Prop where
  routed : mailbox.routing.state = .ready
  /-- In the list of its zone exactly one rule delivers it, and none with
      another id addresses it. -/
  rule : ∃ zone rules, mailbox.routing.zoneId = some zone ∧
    (∃ domain ∈ configuration.domains, domain.receive = true ∧
      domain.name = mailbox.domain ∧
      domain.zoneId = zone) ∧
    cloudflare.list zone = .ok rules ∧
    (∃ before rule after, rules = before ++ rule :: after ∧
      RuleDelivers configuration mailbox rule ∧
      ∀ other ∈ before ++ after, ¬ RuleDelivers configuration mailbox other) ∧
    ∀ rule ∈ rules, rule.id ≠ some mailbox.routing.ruleId →
      rule.addresses mailbox.address = false

/-- When the catch-all may be disabled. -/
structure CutoverAllowed (input : CutoverInput) (cloudflare : CutoverCloudflare) : Prop where
  executing : input.execute = true
  receiving : ∃ domain ∈ input.configuration.domains, domain.receive = true ∧
    domain.zoneId = input.zoneId
  mailbox : ∃ mailbox ∈ input.mailboxes, mailbox.retiredAt = none
  covered : ∀ mailbox ∈ input.mailboxes, mailbox.retiredAt = none →
    MailboxCovered input.configuration cloudflare mailbox
  /-- Both reads show one catch-all, and it is this worker's. -/
  owned : ∃ catchAll, cloudflare.catchAll input.zoneId = .ok catchAll ∧
    cloudflare.freshCatchAll input.zoneId = .ok catchAll ∧
    catchAllOwned input.configuration.workerName catchAll = true
  /-- Every receiving zone has been read. -/
  listed : ∀ zone ∈ receivingZones input.configuration,
    ∃ rules, cloudflare.list zone = .ok rules

section coverage
variable {configuration : RoutingConfiguration} {mailbox : CutoverMailbox}

theorem ruleCovers_iff {rule : GetRuleResponse} :
    ruleCovers configuration mailbox rule = true ↔ RuleDelivers configuration mailbox rule := by
  constructor
  · intro h
    simp only [ruleCovers, Bool.and_eq_true, decide_eq_true_eq] at h
    obtain ⟨⟨⟨⟨hid, hname⟩, henabled⟩, hmatcher⟩, haction⟩ := h
    refine ⟨hid, hname, henabled, ?_, ?_⟩
    · split at hmatcher
      next matcher heq => exact ⟨matcher, heq, hmatcher⟩
      next => cases hmatcher
    · split at haction
      next action heq =>
        simp only [Bool.and_eq_true, decide_eq_true_eq] at haction
        exact ⟨action, heq, haction.1, haction.2⟩
      next => cases haction
  · rintro ⟨hid, hname, henabled, ⟨matcher, hmatchers, hmatcher⟩, action, hactions, htype,
      hvalue⟩
    simp [ruleCovers, hid, hname, henabled, hmatchers, hmatcher, hactions, htype, hvalue]

/-- One item is kept exactly when the list has one place where it holds. -/
theorem length_filter_eq_one {α : Type} {p : α → Bool} {items : List α} :
    (items.filter p).length = 1 ↔ ∃ before item after, items = before ++ item :: after ∧
      p item = true ∧ ∀ other ∈ before ++ after, ¬ p other = true := by
  rw [List.length_eq_one_iff]
  constructor
  · rintro ⟨item, hitem⟩
    obtain ⟨before, after, heq, hbefore, hp, hafter⟩ := List.filter_eq_cons_iff.mp hitem
    refine ⟨before, item, after, heq, hp, ?_⟩
    intro other hother
    obtain hother | hother := List.mem_append.mp hother
    · exact hbefore other hother
    · exact List.filter_eq_nil_iff.mp hafter other hother
  · rintro ⟨before, item, after, rfl, hp, hother⟩
    have hbefore : before.filter p = [] :=
      List.filter_eq_nil_iff.mpr fun other h => hother other (List.mem_append_left after h)
    have hafter : after.filter p = [] :=
      List.filter_eq_nil_iff.mpr fun other h => hother other (List.mem_append_right before h)
    exact ⟨item, by simp [hbefore, hafter, hp]⟩

theorem listRules_cons {zone : String} {zones : List String} {cloudflare : CutoverCloudflare}
    {rulesByZone : List (String × List GetRuleResponse)}
    (h : listRules (zone :: zones) cloudflare = .ok rulesByZone) :
    ∃ rules more, cloudflare.list zone = .ok rules ∧ listRules zones cloudflare = .ok more ∧
      rulesByZone = (zone, rules) :: more := by
  rw [listRules, List.mapM_cons] at h
  cases hlist : cloudflare.list zone with
  | error e =>
    rw [hlist] at h
    cases h
  | ok rules =>
    cases hmore : listRules zones cloudflare with
    | error e =>
      rw [listRules] at hmore
      rw [hlist, hmore] at h
      cases h
    | ok more =>
      rw [listRules] at hmore
      rw [hlist, hmore] at h
      cases h
      exact ⟨rules, more, rfl, rfl, rfl⟩

/-- What the listing holds about each of its zones. -/
theorem lookup_listRules {zones : List String} {cloudflare : CutoverCloudflare}
    {rulesByZone : List (String × List GetRuleResponse)}
    (h : listRules zones cloudflare = .ok rulesByZone) {zone : String} (hzone : zone ∈ zones) :
    ∃ rules, cloudflare.list zone = .ok rules ∧ rulesByZone.lookup zone = some rules := by
  induction zones generalizing rulesByZone with
  | nil => cases hzone
  | cons first zones ih =>
    obtain ⟨rules, more, hlist, hmore, rfl⟩ := listRules_cons h
    by_cases hfirst : zone = first
    · subst hfirst
      exact ⟨rules, hlist, List.lookup_cons_self⟩
    · have htail : zone ∈ zones := List.mem_of_ne_of_mem hfirst hzone
      rw [List.lookup_cons, beq_false_of_ne hfirst]
      exact ih hmore htail

theorem listRules_ok {zones : List String} {cloudflare : CutoverCloudflare}
    (h : ∀ zone ∈ zones, ∃ rules, cloudflare.list zone = .ok rules) :
    ∃ rulesByZone, listRules zones cloudflare = .ok rulesByZone := by
  induction zones with
  | nil => exact ⟨[], rfl⟩
  | cons zone zones ih =>
    obtain ⟨rules, hlist⟩ := h zone List.mem_cons_self
    obtain ⟨more, hmore⟩ := ih fun zone hzone => h zone (List.mem_cons_of_mem _ hzone)
    refine ⟨(zone, rules) :: more, ?_⟩
    rw [listRules] at hmore
    rw [listRules, List.mapM_cons, hlist, hmore]
    rfl

theorem mem_receivingZones {zone : String} : zone ∈ receivingZones configuration ↔
    ∃ domain ∈ configuration.domains, domain.receive = true ∧ domain.zoneId = zone := by
  rw [receivingZones, mem_keepFirst_id]
  simp [and_assoc]

/-- **Coverage.** A mailbox counts as ready exactly when it is covered. -/
theorem mailboxCoverage_ready {cloudflare : CutoverCloudflare} {zoneId : String}
    {rulesByZone : List (String × List GetRuleResponse)}
    (h : listRules (receivingZones configuration) cloudflare = .ok rulesByZone) :
    (mailboxCoverage configuration mailbox rulesByZone zoneId).ready = true ↔
      MailboxCovered configuration cloudflare mailbox := by
  -- a configured domain decides which list is looked at
  have hrules : ∀ domain ∈ configuration.domains, domain.receive = true →
      mailbox.routing.zoneId = some domain.zoneId →
      ∃ rules, cloudflare.list domain.zoneId = .ok rules ∧
        (mailbox.routing.zoneId.bind fun zone => rulesByZone.lookup zone).getD [] = rules := by
    intro domain hdomain hreceive hzone
    obtain ⟨rules, hlist, hlookup⟩ :=
      lookup_listRules h (mem_receivingZones.mpr ⟨domain, hdomain, hreceive, rfl⟩)
    exact ⟨rules, hlist, by rw [hzone, Option.bind_some, hlookup, Option.getD_some]⟩
  simp only [mailboxCoverage, Bool.and_eq_true, decide_eq_true_eq, Bool.not_eq_true',
    length_filter_eq_one, ruleCovers_iff, List.any_eq_true, domainConfigured]
  constructor
  · rintro ⟨⟨⟨⟨domain, hdomain, ⟨hreceive, hname⟩, hzone⟩, hstate⟩, hone⟩,
      hforeign⟩
    obtain ⟨rules, hlist, heq⟩ := hrules domain hdomain hreceive hzone.symm
    rw [heq] at hone hforeign
    refine ⟨hstate, domain.zoneId, rules, hzone.symm, ⟨domain, hdomain, hreceive, hname, rfl⟩,
      hlist, hone, ?_⟩
    intro rule hrule hid
    have hnot := List.any_eq_false.mp hforeign rule hrule
    simpa [ruleForeign, hid] using hnot
  · rintro ⟨hstate, zone, rules, hzone, ⟨domain, hdomain, hreceive, hname, rfl⟩, hlist, hone,
      hforeign⟩
    obtain ⟨rules', hlist', heq⟩ := hrules domain hdomain hreceive hzone
    cases hlist.symm.trans hlist'
    rw [heq]
    refine ⟨⟨⟨⟨domain, hdomain, ⟨hreceive, hname⟩, hzone.symm⟩, hstate⟩,
      hone⟩, ?_⟩
    rw [List.any_eq_false]
    intro rule hrule
    by_cases hid : rule.id = some mailbox.routing.ruleId
    · simp [ruleForeign, hid]
    · simp [ruleForeign, hforeign rule hrule hid]

end coverage

/-! ### Runs -/

section runs
variable {input : CutoverInput} {cloudflare : CutoverCloudflare}

theorem zoneReceives_iff {configuration : RoutingConfiguration} {zoneId : String} :
    zoneReceives configuration zoneId = true ↔
      ∃ domain ∈ configuration.domains, domain.receive = true ∧ domain.zoneId = zoneId := by
  simp [zoneReceives]

/-- The inspection succeeds when its reads do, in a receiving zone. -/
theorem inspectCutover_ok {plan : CutoverPlan} {catchAll : CatchAllResponse} :
    inspectCutover input cloudflare = .ok (plan, catchAll) ↔
      zoneReceives input.configuration input.zoneId = true ∧
      ∃ rulesByZone,
        listRules (receivingZones input.configuration) cloudflare = .ok rulesByZone ∧
        cloudflare.catchAll input.zoneId = .ok catchAll ∧
        plan = cutoverPlan input rulesByZone catchAll := by
  rw [inspectCutover]
  cases hzone : zoneReceives input.configuration input.zoneId with
  | false => simp [cutoverRefusal]
  | true =>
    cases hlist : listRules (receivingZones input.configuration) cloudflare with
    | error e => simp [bind, Except.bind]
    | ok rulesByZone =>
      cases hread : cloudflare.catchAll input.zoneId with
      | error e => simp [bind, Except.bind]
      | ok read =>
        constructor
        · intro h
          cases h
          exact ⟨rfl, rulesByZone, rfl, rfl, rfl⟩
        · rintro ⟨-, _, hrules, hcatchAll, rfl⟩
          cases hrules
          cases hcatchAll
          rfl

theorem cutoverPlan_ready {rulesByZone : List (String × List GetRuleResponse)}
    {catchAll : CatchAllResponse}
    (h : listRules (receivingZones input.configuration) cloudflare = .ok rulesByZone) :
    (cutoverPlan input rulesByZone catchAll).ready = true ↔
      (∃ mailbox ∈ input.mailboxes, mailbox.retiredAt = none) ∧
      (∀ mailbox ∈ input.mailboxes, mailbox.retiredAt = none →
        MailboxCovered input.configuration cloudflare mailbox) ∧
      (catchAllOwned input.configuration.workerName catchAll = true ∨
        catchAllDisabled catchAll = true) := by
  have hready : ∀ mailbox : CutoverMailbox,
      (mailboxCoverage input.configuration mailbox rulesByZone input.zoneId).ready = true ↔
        MailboxCovered input.configuration cloudflare mailbox := fun mailbox =>
    mailboxCoverage_ready h
  simp only [cutoverPlan, Bool.and_eq_true, Bool.or_eq_true, Bool.not_eq_true', and_assoc]
  refine and_congr ?_ (and_congr ?_ Iff.rfl)
  · rw [← Bool.not_eq_true, List.isEmpty_iff]
    simp [List.filter_eq_nil_iff]
  · rw [List.all_eq_true, List.forall_mem_map]
    constructor
    · intro hall mailbox hmailbox hactive
      exact (hready mailbox).mp
        (hall mailbox (List.mem_filter.mpr ⟨hmailbox, by simp [hactive]⟩))
    · intro hall mailbox hmailbox
      obtain ⟨hmailbox, hactive⟩ := List.mem_filter.mp hmailbox
      exact (hready mailbox).mpr (hall mailbox hmailbox (Option.isNone_iff_eq_none.mp hactive))

/-- No catch-all is this worker's and disabled at once. -/
theorem catchAllOwned_of_disabled {catchAll : CatchAllResponse} (workerName : String)
    (h : catchAllDisabled catchAll = true) : catchAllOwned workerName catchAll = false := by
  rw [catchAllDisabled, Bool.and_eq_true] at h
  rw [catchAllOwned]
  cases henabled : memberOf "enabled" catchAll with
  | none => simp [isBool]
  | some value =>
    rw [henabled] at h
    cases value with
    | bool b =>
      have hb : false = b := by simpa [isBool] using h.1
      simp [isBool, ← hb]
    | null | string | array | object => simp [isBool]

/-- What a run does that gets past its checks. -/
theorem recipientCutover_of_allowed (h : CutoverAllowed input cloudflare) :
    (recipientCutover input cloudflare).writes = [input.zoneId] := by
  obtain ⟨catchAll, hread, hfresh, howned⟩ := h.owned
  obtain ⟨rulesByZone, hlist⟩ := listRules_ok h.listed
  have hready : (cutoverPlan input rulesByZone catchAll).ready = true :=
    (cutoverPlan_ready hlist).mpr ⟨h.mailbox, h.covered, .inl howned⟩
  have hinspect : inspectCutover input cloudflare =
      .ok (cutoverPlan input rulesByZone catchAll, catchAll) :=
    inspectCutover_ok.mpr ⟨zoneReceives_iff.mpr h.receiving, rulesByZone, hlist, hread, rfl⟩
  have hplan : (cutoverPlan input rulesByZone catchAll).catchAll.owned = true := howned
  rw [recipientCutover, hinspect]
  simp only [h.executing, hready, hplan, hfresh, Bool.not_true, Bool.false_eq_true, if_false,
    if_true, ne_eq, not_true_eq_false]
  cases cloudflare.disableCatchAll input.zoneId with
  | error e => rfl
  | ok result => cases hresult : catchAllDisabled result <;> simp [hresult]

/-- A run that writes was allowed to. -/
theorem allowed_of_writes (h : (recipientCutover input cloudflare).writes ≠ []) :
    CutoverAllowed input cloudflare := by
  rw [recipientCutover] at h
  split at h
  next e hinspect => exact absurd rfl h
  next plan catchAll hinspect =>
    obtain ⟨hzone, rulesByZone, hlist, hread, rfl⟩ := inspectCutover_ok.mp hinspect
    cases hexecute : input.execute with
    | false =>
      simp [hexecute] at h
    | true =>
      cases hready : (cutoverPlan input rulesByZone catchAll).ready with
      | false => simp [hexecute, hready] at h
      | true =>
        obtain ⟨hmailbox, hcovered, -⟩ := (cutoverPlan_ready hlist).mp hready
        cases howned : (cutoverPlan input rulesByZone catchAll).catchAll.owned with
        | false => simp [hexecute, hready, howned] at h
        | true =>
          cases hfresh : cloudflare.freshCatchAll input.zoneId with
          | error e => simp [hexecute, hready, howned, hfresh] at h
          | ok fresh =>
            by_cases htext : fresh.text = catchAll.text
            · cases Json.Data.text_injective htext
              refine ⟨hexecute, zoneReceives_iff.mp hzone, hmailbox, hcovered,
                ⟨_, hread, hfresh, howned⟩, ?_⟩
              intro zone hmem
              obtain ⟨rules, hrules, -⟩ := lookup_listRules hlist hmem
              exact ⟨rules, hrules⟩
            · simp [hexecute, hready, howned, hfresh, htext] at h

theorem writes_of_not_allowed (h : ¬ CutoverAllowed input cloudflare) :
    (recipientCutover input cloudflare).writes = [] :=
  of_not_not fun hwrites => h (allowed_of_writes hwrites)

/-- What a run that ends well has last seen of the catch-all: the answer to
    its write, or else to its first read. -/
def lastCatchAll (input : CutoverInput) (cloudflare : CutoverCloudflare) :
    Except RecipientCutoverError CatchAllResponse :=
  if (recipientCutover input cloudflare).writes = [] then cloudflare.catchAll input.zoneId
  else cloudflare.disableCatchAll input.zoneId

/-- An executed run that ends well has seen the catch-all disabled. -/
theorem lastCatchAll_disabled (hexecute : input.execute = true) {plan : CutoverPlan}
    (h : (recipientCutover input cloudflare).outcome = .ok plan) :
    ∃ last, lastCatchAll input cloudflare = .ok last ∧ catchAllDisabled last = true := by
  rw [lastCatchAll]
  cases hinspect : inspectCutover input cloudflare with
  | error e => simp [recipientCutover, hinspect] at h
  | ok inspected =>
    obtain ⟨plan', catchAll⟩ := inspected
    obtain ⟨-, rulesByZone, hlist, hread, rfl⟩ := inspectCutover_ok.mp hinspect
    cases hready : (cutoverPlan input rulesByZone catchAll).ready with
    | false => simp [recipientCutover, hinspect, hexecute, hready, cutoverRefusal] at h
    | true =>
      cases howned : (cutoverPlan input rulesByZone catchAll).catchAll.owned with
      | false =>
        -- ready without an owned catch-all: the first read showed it disabled
        have hwrites : (recipientCutover input cloudflare).writes = [] := by
          simp [recipientCutover, hinspect, hexecute, hready, howned]
        obtain ⟨-, -, howned' | hdisabled⟩ := (cutoverPlan_ready hlist).mp hready
        · exact absurd (howned.symm.trans howned') (by decide)
        · exact ⟨catchAll, by rw [if_pos hwrites, hread], hdisabled⟩
      | true =>
        cases hfresh : cloudflare.freshCatchAll input.zoneId with
        | error e => simp [recipientCutover, hinspect, hexecute, hready, howned, hfresh] at h
        | ok fresh =>
          by_cases htext : fresh.text = catchAll.text
          · cases hresult : cloudflare.disableCatchAll input.zoneId with
            | error e =>
              simp [recipientCutover, hinspect, hexecute, hready, howned, hfresh, htext,
                hresult] at h
            | ok result =>
              cases hdisabled : catchAllDisabled result with
              | false =>
                simp [recipientCutover, hinspect, hexecute, hready, howned, hfresh, htext,
                  hresult, hdisabled, cutoverRefusal] at h
              | true =>
                refine ⟨result, ?_, hdisabled⟩
                simp [recipientCutover, hinspect, hexecute, hready, howned, hfresh, htext,
                  hresult, hdisabled]
          · simp [recipientCutover, hinspect, hexecute, hready, howned, hfresh, htext,
              cutoverRefusal] at h

/-- A run that reads the catch-all as disabled writes nothing. -/
theorem writes_of_disabled {catchAll : CatchAllResponse}
    (hread : cloudflare.catchAll input.zoneId = .ok catchAll)
    (hdisabled : catchAllDisabled catchAll = true) :
    (recipientCutover input cloudflare).writes = [] := by
  apply writes_of_not_allowed
  intro hallowed
  obtain ⟨catchAll', hread', -, howned⟩ := hallowed.owned
  cases hread.symm.trans hread'
  rw [catchAllOwned_of_disabled _ hdisabled] at howned
  cases howned

end runs

/-- **No visible mail is dropped.** A run disables the catch-all of its zone
    exactly when that is allowed, and otherwise writes nothing; nor does any
    later run that reads the catch-all as an executed run has left it. -/
theorem recipientCutover_safe (input : CutoverInput) (cloudflare : CutoverCloudflare) :
    ((recipientCutover input cloudflare).writes = [input.zoneId] ↔
      CutoverAllowed input cloudflare) ∧
    (¬ CutoverAllowed input cloudflare → (recipientCutover input cloudflare).writes = []) ∧
    (input.execute = true → ∀ plan, (recipientCutover input cloudflare).outcome = .ok plan →
      ∃ last, lastCatchAll input cloudflare = .ok last ∧
        ∀ input' cloudflare', cloudflare'.catchAll input'.zoneId = .ok last →
          (recipientCutover input' cloudflare').writes = []) := by
  refine ⟨⟨fun h => allowed_of_writes ?_, recipientCutover_of_allowed⟩,
    writes_of_not_allowed, ?_⟩
  · rw [h]
    exact List.cons_ne_nil _ _
  · intro hexecute plan hplan
    obtain ⟨last, hlast, hdisabled⟩ := lastCatchAll_disabled hexecute hplan
    exact ⟨last, hlast, fun input' cloudflare' hread => writes_of_disabled hread hdisabled⟩

/-! ### One zone with one mailbox -/

namespace Sample.Cutover

def mailbox : CutoverMailbox where
  id := "inbox-id"
  address := "inbox@mail.example.com"
  domain := "mail.example.com"
  retiredAt := none
  routing := { state := .ready, ruleId := some "literal-id", zoneId := some "zone" }

def input : CutoverInput where
  zoneId := "zone"
  execute := true
  configuration :=
    { workerName := "umail-prod"
      ownerPrefix := "umail/uMail/prod/"
      domains := [{ name := "mail.example.com", receive := true, zoneId := "zone" }] }
  mailboxes := [mailbox]

def literal : GetRuleResponse where
  id := some (some "literal-id")
  name := some "umail/uMail/prod/inbox-id"
  enabled := some true
  matchers := some [{ type := "literal", field := some "to", value := some mailbox.address }]
  actions := some [{ type := "worker", value := some ["umail-prod"] }]

/-- Under the id of `literal`, and for its address, but not this worker's. -/
def elsewhere : GetRuleResponse :=
  { literal with actions := some [{ type := "forward", value := some ["home@example.org"] }] }

def all : CatchAllResponse :=
  .object
    [("enabled", .bool true),
      ("actions", .array
        [.object [("type", .string "worker"), ("value", .array [.string "umail-prod"])]]),
      ("matchers", .array [.object [("type", .string "all")]])]

def dropped : CatchAllResponse :=
  .object
    [("enabled", .bool false),
      ("matchers", .array [.object [("type", .string "all")]]),
      ("actions", .array [.object [("type", .string "drop"), ("value", .array [])]])]

/-- Answers with these rules, an owned catch-all, and a confirmation. -/
def cloudflare (rules : List GetRuleResponse) : CutoverCloudflare where
  list _ := .ok rules
  catchAll _ := .ok all
  freshCatchAll _ := .ok all
  disableCatchAll _ := .ok dropped

def afterwards : CutoverCloudflare := { cloudflare [literal] with catchAll := fun _ => .ok dropped }

theorem writes : (recipientCutover input (cloudflare [literal])).writes = ["zone"] := by
  decide +kernel

theorem succeeds : ∃ plan, (recipientCutover input (cloudflare [literal])).outcome = .ok plan :=
  ⟨_, rfl⟩

end Sample.Cutover

open Sample.Cutover in
theorem recipientCutover_safe_inbox :
    CutoverAllowed input (cloudflare [literal]) ∧
      (recipientCutover input afterwards).writes = [] := by
  obtain ⟨hiff, -, hagain⟩ := recipientCutover_safe input (cloudflare [literal])
  obtain ⟨plan, hplan⟩ := succeeds
  obtain ⟨last, hlast, hnothing⟩ := hagain rfl plan hplan
  refine ⟨hiff.mp writes, hnothing input afterwards ?_⟩
  rw [lastCatchAll, writes, if_neg (List.cons_ne_nil _ _)] at hlast
  exact hlast

open Sample.Cutover in
/-- Rules are told apart by their ids only: a list with a second rule under
    the stored id, which addresses the mailbox too, does not stop the cutover. -/
theorem recipientCutover_shared_rule_id : ¬ ∀ input cloudflare,
    (recipientCutover input cloudflare).writes ≠ [] →
      ∀ mailbox ∈ input.mailboxes, mailbox.retiredAt = none →
        ∃ zone rules, mailbox.routing.zoneId = some zone ∧ cloudflare.list zone = .ok rules ∧
          (rules.filter (·.addresses mailbox.address)).length ≤ 1 := by
  intro h
  obtain ⟨zone, rules, hzone, hlist, hone⟩ := h input (cloudflare [literal, elsewhere])
    (by decide +kernel) mailbox List.mem_cons_self rfl
  cases hlist
  exact absurd hone (by decide +kernel)

end Umail
