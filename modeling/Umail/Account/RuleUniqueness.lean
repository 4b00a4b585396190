import Umail.Account.RuleOwnership

/-! # One rule for each mailbox

  The account database and the rule list of a zone are two stores without a
  common transaction. A rule that was created may be unknown to the database,
  because the response was lost or the process died, and a mailbox may be
  retired at any moment.

  The machine runs one pass at a time. A call takes effect at one moment
  between the request and the response, or not at all; then the pass sees the
  response, or a failure. Other people and other workers change the zone as
  they like, except that they give no rule the owner name of the mailbox.

  Two facts follow, for each mailbox: at most one rule carries its owner
  name, and none does once the route is settled. The invariant says for each
  call in flight what the rules with that name can still be.
-/

namespace Umail

open Relational

section uniqueness

/-! ### The zones -/

instance : Keyed RecipientRule String := .primary RecipientRule.id

/-- The rules of each zone. -/
abbrev RuleZones := String → Table RecipientRule

/-- The rule with this body. -/
def RuleBody.rule (body : RuleBody) (id : String) : RecipientRule where
  id
  name := some body.name
  enabled := some body.enabled
  matchers := some body.matchers
  actions := some body.actions

/-- The effect of a write, and its response. A created rule gets a fresh id, a
    rule that is updated exists, and one that is deleted need not. -/
def RuleZones.perform (zones : RuleZones) (freshId : String) :
    RuleWrite → Option (RuleZones × RouteReply)
  | .createRule zoneId body => ((zones zoneId).insert? (body.rule freshId)).map fun rules =>
    (Function.update zones zoneId rules, .save (.ok (body.rule freshId)))
  | .updateRule zoneId ruleIdentifier body =>
    if ((zones zoneId).find? (·.id = ruleIdentifier)).isSome then
      some (Function.update zones zoneId ((zones zoneId).update (·.id = ruleIdentifier)
        (fun rule => body.rule rule.id) fun _ => rfl), .save (.ok (body.rule ruleIdentifier)))
    else none
  | .deleteRule zoneId ruleIdentifier =>
    some (Function.update zones zoneId ((zones zoneId).delete (·.id = ruleIdentifier)),
      .remove (.ok ()))

/-! ### Rules with the owner name -/

section named
variable (ports : RecipientRoutingPorts) (id : String)

/-- The rule carries the owner name of the mailbox. -/
def Named (zones : RuleZones) (zoneId : String) (rule : RecipientRule) : Prop :=
  rule ∈ zones zoneId ∧ rule.name = some (ports.ownerPrefix ++ id)

/-- No rule is new among those that carry the name. -/
def Shrinks (zones zones' : RuleZones) : Prop :=
  ∀ zoneId rule, Named ports id zones' zoneId rule →
    ∃ rule', Named ports id zones zoneId rule' ∧ rule'.id = rule.id

/-- The rules that carry the name are at most the given one. -/
def OnlyNamed (zones : RuleZones) (own : Option RecipientRule) : Prop :=
  ∀ zoneId rule, Named ports id zones zoneId rule → own.map (·.id) = some rule.id

/-- All rules with the owner name are the same one. -/
def OneNamed (zones : RuleZones) : Prop :=
  ∀ zoneId zoneId' rule rule', Named ports id zones zoneId rule →
    Named ports id zones zoneId' rule' → rule.id = rule'.id

/-- The rules of a zone that carry the owner name of the mailbox. -/
def namedRules (zones : RuleZones)
    (zoneId : String) : List RecipientRule :=
  (zones zoneId).select fun rule => rule.name = some (ports.ownerPrefix ++ id)

end named

variable {ports : RecipientRoutingPorts} {id : String} {zones zones' : RuleZones}
    {own : Option RecipientRule}

theorem Shrinks.refl (zones : RuleZones) : Shrinks ports id zones zones :=
  fun _ rule hnamed => ⟨rule, hnamed, rfl⟩

theorem Shrinks.onlyNamed (h : Shrinks ports id zones zones')
    (hown : OnlyNamed ports id zones own) :
    OnlyNamed ports id zones' own := by
  intro zoneId rule hnamed
  obtain ⟨rule', hnamed', hid⟩ := h zoneId rule hnamed
  rw [← hid]
  exact hown zoneId rule' hnamed'

theorem mem_namedRules {zoneId : String} {rule : RecipientRule} :
    rule ∈ namedRules ports id zones zoneId ↔ Named ports id zones zoneId rule := by
  unfold namedRules
  rw [Table.mem_select, Named]
  simp

/-- A zone has at most one rule with the name. -/
theorem OneNamed.length_le (h : OneNamed ports id zones) (zoneId : String) :
    (namedRules ports id zones zoneId).length ≤ 1 := by
  have hnamed : ∀ rule ∈ namedRules ports id zones zoneId, Named ports id zones zoneId rule :=
    fun rule => mem_namedRules.mp
  have hdistinct : (namedRules ports id zones zoneId).Pairwise fun a b => ¬ Clash a b :=
    (zones zoneId).distinct.filter _
  rcases hlist : namedRules ports id zones zoneId with _ | ⟨first, _ | ⟨second, others⟩⟩
  · simp
  · simp
  · rw [hlist] at hnamed hdistinct
    have hne := List.rel_of_pairwise_cons hdistinct List.mem_cons_self
    exact absurd (h zoneId zoneId first second (hnamed first (by simp)) (hnamed second (by simp)))
      hne

theorem OneNamed.shrink (h : OneNamed ports id zones) (hshrinks : Shrinks ports id zones zones') :
    OneNamed ports id zones' := by
  intro zoneId zoneId' rule rule' hnamed hnamed'
  obtain ⟨old, hold, hid⟩ := hshrinks zoneId rule hnamed
  obtain ⟨old', hold', hid'⟩ := hshrinks zoneId' rule' hnamed'
  rw [← hid, ← hid']
  exact h zoneId zoneId' old old' hold hold'

theorem OnlyNamed.none (h : OnlyNamed ports id zones none) {zoneId : String}
    {rule : RecipientRule} : ¬ Named ports id zones zoneId rule := by
  intro hnamed
  exact absurd (h zoneId rule hnamed) (by simp)

/-- No other rule has been given the name. -/
def leavesName (name : String) (before after : Table RecipientRule) : Bool :=
  after.rows.all fun rule => rule.name ≠ some name ||
    before.rows.any fun rule' => rule'.id = rule.id && rule'.name = some name

theorem shrinks_of_leavesName {zoneId : String} {rules : Table RecipientRule}
    (h : leavesName (ports.ownerPrefix ++ id) (zones zoneId) rules = true) :
    Shrinks ports id zones (Function.update zones zoneId rules) := by
  intro zoneId' rule hnamed
  obtain ⟨hrule, hname⟩ := hnamed
  by_cases hzone : zoneId' = zoneId
  · subst hzone
    rw [Function.update_self] at hrule
    have hleaves := List.all_eq_true.mp h rule hrule
    simp only [hname, ne_eq, not_true_eq_false, decide_false, Bool.false_or,
      List.any_eq_true] at hleaves
    obtain ⟨rule', hrule', hsame⟩ := hleaves
    simp only [Bool.and_eq_true, decide_eq_true_eq] at hsame
    exact ⟨rule', ⟨hrule', hsame.2⟩, hsame.1⟩
  · rw [Function.update_of_ne hzone] at hrule
    exact ⟨rule, ⟨hrule, hname⟩, rfl⟩

/-! ### What a write does to them -/

def RuleWrite.zoneId : RuleWrite → String
  | .createRule zoneId _ | .updateRule zoneId _ _ | .deleteRule zoneId _ => zoneId

/-- The name that a write gives to its rule. -/
def RuleWrite.name : RuleWrite → Option String
  | .createRule _ body | .updateRule _ _ body => some body.name
  | .deleteRule _ _ => none

section saved
variable {zoneId address worker name freshId : String}

@[simp] theorem saveRule_zoneId (ruleId : Option String) :
    (saveRule zoneId address worker name ruleId).zoneId = zoneId := by cases ruleId <;> rfl

@[simp] theorem saveRule_name (ruleId : Option String) :
    (saveRule zoneId address worker name ruleId).name = some name := by cases ruleId <;> rfl

@[simp] theorem saveRule_target (ruleId : Option String) :
    (saveRule zoneId address worker name ruleId).target = ruleId := by cases ruleId <;> rfl

end saved

/-- A rule that carries the name after a write did so before and is not the
    one that was written, or it is the one that was given the name. -/
theorem named_perform {freshId : String} {write : RuleWrite} {reply : RouteReply}
    (h : zones.perform freshId write = some (zones', reply)) {zoneId : String}
    {rule : RecipientRule} (hnamed : Named ports id zones' zoneId rule) :
    (Named ports id zones zoneId rule ∧
      ¬ (zoneId = write.zoneId ∧ write.target = some rule.id)) ∨
    (zoneId = write.zoneId ∧ write.name = some (ports.ownerPrefix ++ id) ∧
      rule.id = write.target.getD freshId) := by
  obtain ⟨hrule, hname⟩ := hnamed
  by_cases hzone : zoneId = write.zoneId
  · subst hzone
    cases write with
    | createRule zoneId body =>
      obtain ⟨rules, hins, heq⟩ := Option.map_eq_some_iff.mp h
      obtain ⟨rfl, -⟩ := Prod.mk.inj heq
      simp only [RuleWrite.zoneId, Function.update_self] at hrule
      rcases (Table.mem_insert? hins).mp hrule with hold | rfl
      · exact .inl ⟨⟨hold, hname⟩, by simp [RuleWrite.target]⟩
      · exact .inr ⟨rfl, hname, rfl⟩
    | updateRule zoneId ruleIdentifier body =>
      simp only [RuleZones.perform] at h
      split at h
      · obtain ⟨rfl, -⟩ := Lts.some_pair_inj h
        simp only [RuleWrite.zoneId, Function.update_self] at hrule
        obtain ⟨rule', hrule', heq⟩ := Table.mem_update.mp hrule
        by_cases hid : rule'.id = ruleIdentifier
        · rw [if_pos (by simpa using hid)] at heq
          subst heq
          exact .inr ⟨rfl, hname, hid⟩
        · rw [if_neg (by simpa using hid)] at heq
          subst heq
          refine .inl ⟨⟨hrule', hname⟩, ?_⟩
          rintro ⟨-, htarget⟩
          exact hid (Option.some.inj htarget).symm
      · exact absurd h (by simp)
    | deleteRule zoneId ruleIdentifier =>
      obtain ⟨rfl, -⟩ := Lts.some_pair_inj h
      simp only [RuleWrite.zoneId, Function.update_self] at hrule
      obtain ⟨hrule', hne⟩ := Table.mem_delete.mp hrule
      refine .inl ⟨⟨hrule', hname⟩, ?_⟩
      rintro ⟨-, htarget⟩
      obtain rfl := Option.some.inj htarget
      exact absurd hne (by simp)
  · -- the other zones are as before
    have hsame : zones' zoneId = zones zoneId := by
      cases write with
      | createRule zoneId' body =>
        obtain ⟨rules, -, heq⟩ := Option.map_eq_some_iff.mp h
        obtain ⟨rfl, -⟩ := Prod.mk.inj heq
        exact Function.update_of_ne hzone ..
      | updateRule zoneId' ruleIdentifier body =>
        simp only [RuleZones.perform] at h
        split at h
        · obtain ⟨rfl, -⟩ := Lts.some_pair_inj h
          exact Function.update_of_ne hzone ..
        · exact absurd h (by simp)
      | deleteRule zoneId' ruleIdentifier =>
        obtain ⟨rfl, -⟩ := Lts.some_pair_inj h
        exact Function.update_of_ne hzone ..
    rw [hsame] at hrule
    exact .inl ⟨⟨hrule, hname⟩, fun hwritten => hzone hwritten.1⟩

/-- A write that does not give the name to a rule. -/
theorem shrinks_perform {freshId : String} {write : RuleWrite} {reply : RouteReply}
    (h : zones.perform freshId write = some (zones', reply))
    (hname : write.name ≠ some (ports.ownerPrefix ++ id)) : Shrinks ports id zones zones' := by
  intro zoneId rule hnamed
  rcases named_perform h hnamed with ⟨hold, -⟩ | ⟨-, hnew, -⟩
  · exact ⟨rule, hold, rfl⟩
  · exact absurd hnew hname

/-! ### The machine -/

section machine
variable [Unicode]

/-- The effect of a call, and its response. -/
def RuleZones.answer (ports : RecipientRoutingPorts) (zones : RuleZones) (freshId : String)
    (call : RouteAwait) : Option (RuleZones × RouteReply) :=
  match call with
  | .listing a => some (zones, .list (.ok (zones a.zoneId).rows))
  | .reading a _ own => some (zones, .read (.ok ((zones a.zoneId).find? (·.id = own.id))))
  | .removing _ _ _ | .saving _ _ _ => (call.write ports).bind (zones.perform freshId)

structure RuleWorld where
  store : Store
  zones : RuleZones
  pass : Option RoutePass
  /-- The response to the call in flight. -/
  reply : Option RouteReply

/-- What becomes of a call. -/
inductive CallFate where
  | performed (freshId : String)
  | refused (error : RecipientRuleError)
  /-- The call is performed, and its response is lost. -/
  | lost (freshId : String) (error : RecipientRuleError)

inductive RuleLabel where
  | command (c : Command)
  /-- Somebody else changes the rules of a zone. -/
  | others (zoneId : String) (rules : Table RecipientRule)
  | start (nowMs : Instant)
  | call (fate : CallFate)
  /-- The pass runs up to its next call. -/
  | step
  | crash

/-- What becomes of the call in flight. -/
def RuleWorld.resolve (ports : RecipientRoutingPorts) (w : RuleWorld) (call : RouteAwait) :
    CallFate → Option RuleWorld
  | .performed freshId => (w.zones.answer ports freshId call).map fun answered =>
    { w with zones := answered.1, reply := some answered.2 }
  | .refused error => some { w with reply := some (call.failure error) }
  | .lost freshId error => (w.zones.answer ports freshId call).map fun answered =>
    { w with zones := answered.1, reply := some (call.failure error) }

/-- Serial passes next to commands, from the migrated empty store and zones
    without a rule of the mailbox `id`. The routes are written by the passes. -/
def ruled (ports : RecipientRoutingPorts) (id : String) : Lts.Machine RuleWorld RuleLabel where
  init w := w.store = Store.empty ∧ w.pass = none ∧ w.reply = none ∧
    ∀ zoneId, ∀ rule ∈ w.zones zoneId, rule.name ≠ some (ports.ownerPrefix ++ id)
  step w
    | .command (.writeRoute _ _) => none
    | .command c => some { w with store := w.store.exec c }
    | .others zoneId rules =>
      if leavesName (ports.ownerPrefix ++ id) (w.zones zoneId) rules then
        some { w with zones := Function.update w.zones zoneId rules }
      else none
    | .start nowMs =>
      match w.pass with
      | some _ => none
      | none => some { w with pass := some { nowMs, point := .selecting } }
    | .call fate =>
      match w.pass, w.reply with
      | some { nowMs := _, point := .attempting _ _ call }, none => w.resolve ports call fate
      | _, _ => none
    | .step => w.pass.bind fun p => (p.step ports w.store (w.reply.getD .unit)).map fun stepped =>
      { w with store := stepped.1, pass := stepped.2, reply := none }
    | .crash => some { w with pass := none, reply := none }

/-- What one step of the machine can do. -/
theorem ruled_step_cases {w w' : RuleWorld} {l : RuleLabel}
    (h : (ruled ports id).step w l = some w') :
    (∃ c, (∀ id' write, c ≠ .writeRoute id' write) ∧
      w' = { w with store := w.store.exec c }) ∨
    (∃ zoneId rules, leavesName (ports.ownerPrefix ++ id) (w.zones zoneId) rules = true ∧
      w' = { w with zones := Function.update w.zones zoneId rules }) ∨
    (∃ nowMs, w' = { w with pass := some { nowMs, point := .selecting } }) ∨
    (∃ p row rest call fate, w.pass = some p ∧ p.point = .attempting row rest call ∧
      w.reply = none ∧ w.resolve ports call fate = some w') ∨
    (∃ p s next, w.pass = some p ∧ p.step ports w.store (w.reply.getD .unit) =
      some (s, next) ∧
      w' = { w with store := s, pass := next, reply := none }) ∨
    w' = { w with pass := none, reply := none } := by
  -- the label decides the case; a route is written by the pass only
  cases l with
  | command c =>
    have hc : ∀ id' write, c ≠ .writeRoute id' write := by
      intro id' write heq
      subst heq
      exact absurd h (by simp [ruled])
    refine .inl ⟨c, hc, ?_⟩
    cases c <;> first | exact (Option.some.inj h).symm | exact absurd rfl (hc _ _)
  | others zoneId rules =>
    simp only [ruled] at h
    split at h
    · next hleaves => exact .inr (.inl ⟨zoneId, rules, hleaves, (Option.some.inj h).symm⟩)
    · exact absurd h (by simp)
  | start nowMs =>
    simp only [ruled] at h
    split at h
    · exact absurd h (by simp)
    · exact .inr (.inr (.inl ⟨nowMs, (Option.some.inj h).symm⟩))
  | call fate =>
    simp only [ruled] at h
    split at h
    · next now row rest call hpass hreply =>
      exact .inr (.inr (.inr (.inl ⟨_, row, rest, call, fate, hpass, rfl, hreply, h⟩)))
    · exact absurd h (by simp)
  | step =>
    obtain ⟨p, hp, hmap⟩ := Option.bind_eq_some_iff.mp h
    obtain ⟨⟨s, next⟩, hstep, heq⟩ := Option.map_eq_some_iff.mp hmap
    exact .inr (.inr (.inr (.inr (.inl ⟨p, s, next, hp, hstep, heq.symm⟩))))
  | crash => exact .inr (.inr (.inr (.inr (.inr (Option.some.inj h).symm))))

/-! ### The stored route -/

/-- The route is ready, without a rule, and not due. -/
structure MailboxRouteRow.Settled (r : MailboxRouteRow) : Prop where
  state : r.state = .ready
  rule : r.rule_id = none
  retry : r.retry_after = none

section recorded
variable (ports id)

/-- What the database knows of the rules with the owner name: the zone they
    are in and, of a settled route, that there are none. -/
structure Recorded (s : Store) (zones : RuleZones) : Prop where
  placed : ∀ zoneId rule, Named ports id zones zoneId rule →
    ∃ row ∈ s.routes, row.mailbox_id = id ∧ row.zone_id = some zoneId
  settled : ∀ row ∈ s.routes, row.mailbox_id = id → row.Settled →
    retiredNow s id = true ∧ OnlyNamed ports id zones none

end recorded

/-- What a read of the mailbox says about the store since. -/
structure Seen (s : Store) (id : String) (current : AccountAddress) : Prop where
  retired : current.retiredAt.isSome = true → retiredNow s id = true
  unretired : current.retiredAt = none → ∀ row ∈ s.routes, row.mailbox_id = id →
    ¬ row.Settled

/-- The zone of the mailbox is stored. -/
def ZoneStored (s : Store) (id zoneId : String) : Prop :=
  ∃ row ∈ s.routes, row.mailbox_id = id ∧ row.zone_id = some zoneId

variable {s s' : Store}

theorem ZoneStored.unique {zoneId zoneId' : String} (h : ZoneStored s id zoneId)
    (h' : ZoneStored s id zoneId') : zoneId = zoneId' := by
  obtain ⟨row, hrow, hid, hzone⟩ := h
  obtain ⟨row', hrow', hid', hzone'⟩ := h'
  obtain rfl := s.routes.eq_of_clash hrow hrow' (hid.trans hid'.symm)
  exact Option.some.inj (hzone.symm.trans hzone')

theorem retiredNow_iff : retiredNow s id = true ↔
    ∃ a ∈ s.addresses, a.id = id ∧ a.retired_at.isSome = true := by
  constructor
  · intro h
    obtain ⟨t, ht⟩ := Option.isSome_iff_exists.mp h
    obtain ⟨a, hfind, hretired⟩ := Option.bind_eq_some_iff.mp ht
    exact ⟨a, Table.find?_mem hfind, by simpa using Table.find?_prop hfind, by simp [hretired]⟩
  · intro ⟨a, ha, hid, hretired⟩
    have hfind : s.addresses.find? (·.id = id) = some a :=
      Table.find?_eq_some_of_mem (fun a b hpa hpb => Or.inl (by
        simp only [decide_eq_true_eq] at hpa hpb
        exact hpa.trans hpb.symm)) ha (by simpa using hid)
    simp [retiredNow, hfind, hretired]

theorem Recorded.shrink (h : Recorded ports id s zones) (hshrinks : Shrinks ports id zones zones') :
    Recorded ports id s zones' := by
  constructor
  · intro zoneId rule hnamed
    obtain ⟨rule', hnamed', -⟩ := hshrinks zoneId rule hnamed
    exact h.placed zoneId rule' hnamed'
  · intro row hrow hid hsettled
    obtain ⟨hretired, hnone⟩ := h.settled row hrow hid hsettled
    exact ⟨hretired, hshrinks.onlyNamed hnone⟩

/-- A read of the mailbox, at the time it is made. -/
theorem Recorded.seen (h : Recorded ports id s zones) {current : AccountAddress}
    (hread : getAddress s id = some current) : Seen s id current := by
  have hretired := getAddress_retired hread
  constructor
  · intro hret
    rw [hretired, hret]
  · intro hnone row hrow hid hsettled
    rw [(h.settled row hrow hid hsettled).1, hnone] at hretired
    exact absurd hretired (by simp)

/-! ### Commands -/

theorem Administers.retired (h : Administers s s') (hretired : retiredNow s id = true) :
    retiredNow s' id = true := by
  obtain ⟨a, ha, hid, hret⟩ := retiredNow_iff.mp hretired
  obtain ⟨a', ha', hlater⟩ := h.addresses.exists_mem ha
  exact retiredNow_iff.mpr ⟨a', ha', hlater.id.trans hid, hlater.retired hret⟩

theorem Administers.zoneStored (h : Administers s s') {zoneId : String}
    (hzone : ZoneStored s id zoneId) : ZoneStored s' id zoneId := by
  obtain ⟨row, hrow, hid, hzone⟩ := hzone
  obtain ⟨row', hrow', hrequested⟩ := h.routes.exists_mem hrow
  exact ⟨row', hrow', hrequested.mailbox.trans hid, hrequested.zone.trans hzone⟩

/-- A settled route has been settled before: a command makes a route due or leaves it. -/
theorem Administers.settled (h : Administers s s') {row : MailboxRouteRow}
    (hrow : row ∈ s'.routes)
    (hsettled : row.Settled) : row ∈ s.routes := by
  have hnotDue : ¬ row.retry_after.isSome = true := by simp [hsettled.retry]
  rcases h.routes.mem_cases hrow with ⟨old, hold, hrequested⟩ | hnew
  · rcases hrequested.due with rfl | hdue
    · exact hold
    · exact absurd hdue hnotDue
  · exact absurd hnew.1 hnotDue

theorem Administers.recorded (h : Administers s s') (hs : Recorded ports id s zones) :
    Recorded ports id s' zones := by
  constructor
  · intro zoneId rule hnamed
    exact h.zoneStored (hs.placed zoneId rule hnamed)
  · intro row hrow hid hsettled
    obtain ⟨hretired, hnone⟩ := hs.settled row (h.settled hrow hsettled) hid hsettled
    exact ⟨h.retired hretired, hnone⟩

theorem Administers.seen (h : Administers s s') {current : AccountAddress}
    (hseen : Seen s id current) : Seen s' id current := by
  constructor
  · intro hret
    exact h.retired (hseen.retired hret)
  · intro hnone row hrow hid hsettled
    exact hseen.unretired hnone row (h.settled hrow hsettled) hid hsettled

/-! ### Route writes -/

/-- The row of a mailbox after a route write. -/
theorem mem_writeRoute {id' : String} {write : RouteWrite} {row' : MailboxRouteRow} :
    row' ∈ (writeRoute s id' write).routes ↔
      ∃ row ∈ s.routes,
        (if decide (row.mailbox_id = id') then write.assign s id' row else row) =
        row' := Table.mem_of_map (writeRoute_rows s id' write)

@[simp] theorem RouteWrite.assign_mailbox (write : RouteWrite) (s : Store) (id' : String)
    (row : MailboxRouteRow) : (write.assign s id' row).mailbox_id = row.mailbox_id := by
  cases write <;> rfl

/-- A write stores no other zone than the one that is stored. -/
def RouteWrite.KeepsZone (write : RouteWrite) (s : Store) (id : String) : Prop :=
  ∀ zoneId zoneId', write = .zone zoneId → ZoneStored s id zoneId' → zoneId = zoneId'

theorem ZoneStored.write {zoneId id' : String} {write : RouteWrite} (h : ZoneStored s id zoneId)
    (hkeeps : id' = id → write.KeepsZone s id) :
      ZoneStored (writeRoute s id' write) id zoneId := by
  obtain ⟨row, hrow, hid, hzone⟩ := h
  refine ⟨_, mem_writeRoute.mpr ⟨row, hrow, rfl⟩, ?_⟩
  by_cases hrowid : row.mailbox_id = id'
  · rw [if_pos (by simpa using hrowid)]
    refine ⟨by simpa using hid, ?_⟩
    cases write with
    | zone zoneId' =>
      have hsame := hkeeps (hrowid.symm.trans hid) zoneId' zoneId rfl ⟨row, hrow, hid, hzone⟩
      exact congrArg some hsame
    | rule | removed | confirmed | failed => exact hzone
  · rw [if_neg (by simpa using hrowid)]
    exact ⟨hid, hzone⟩

/-- A write that settles a route does so for a retired mailbox whose name no rule carries. -/
theorem Recorded.write (h : Recorded ports id s zones) {id' : String} {write : RouteWrite}
    (hkeeps : id' = id → write.KeepsZone s id)
    (hsettles : id' = id → ∀ row ∈ s.routes, (write.assign s id row).Settled →
      row.Settled ∨ retiredNow s id = true ∧ OnlyNamed ports id zones none) :
    Recorded ports id (writeRoute s id' write) zones := by
  constructor
  · intro zoneId rule hnamed
    exact ZoneStored.write (h.placed zoneId rule hnamed) hkeeps
  · intro row' hrow' hid hsettled
    rw [retiredNow_write]
    obtain ⟨row, hrow, heq⟩ := mem_writeRoute.mp hrow'
    -- the row that is written, or one that is left as it was
    by_cases hrowid : row.mailbox_id = id'
    · rw [if_pos (by simpa using hrowid)] at heq
      subst heq
      have hsame : row.mailbox_id = id := by simpa using hid
      obtain rfl : id' = id := hrowid.symm.trans hsame
      rcases hsettles rfl row hrow hsettled with hbefore | hgone
      · exact h.settled row hrow hsame hbefore
      · exact hgone
    · rw [if_neg (by simpa using hrowid)] at heq
      subst heq
      exact h.settled row hrow hid hsettled

/-- A write to the route of another mailbox. -/
theorem Recorded.write_other (h : Recorded ports id s zones) {id' : String} {write : RouteWrite}
    (hne : id' ≠ id) : Recorded ports id (writeRoute s id' write) zones :=
  h.write (fun heq => absurd heq hne) fun heq => absurd heq hne

/-- The write neither stores a zone nor settles the route. -/
def RouteWrite.unsettling : RouteWrite → Bool
  | .rule _ | .confirmed _ _ | .failed _ _ _ => true
  | .zone _ | .removed => false

theorem Recorded.unsettle (h : Recorded ports id s zones) (id' : String) {write : RouteWrite}
    (hwrite : write.unsettling = true) : Recorded ports id (writeRoute s id' write) zones := by
  refine h.write (fun _ => ?_) fun _ row _ hsettled => ?_
  · intro zoneId zoneId' heq
    subst heq
    exact absurd hwrite (by simp [RouteWrite.unsettling])
  · cases write with
    | rule ruleId => exact absurd hsettled.rule (by simp [RouteWrite.assign])
    | confirmed ruleId now => exact absurd hsettled.rule (by simp [RouteWrite.assign])
    | failed message attempts retryAfter =>
      exact absurd hsettled.state (by simp [RouteWrite.assign])
    | zone | removed => exact absurd hwrite (by simp [RouteWrite.unsettling])

/-- The owned rule of a retired mailbox is gone. -/
theorem Recorded.remove (h : Recorded ports id s zones) (hretired : retiredNow s id = true)
    (hnone : OnlyNamed ports id zones none) : Recorded ports id (writeRoute s id .removed) zones :=
  h.write (fun _ _ _ hwrite => absurd hwrite (by simp)) fun _ _ _ _ => .inr ⟨hretired, hnone⟩

/-! ### Calls in flight -/

/-- The rule that a call of an attempt has found to be the owned one. -/
def RouteAwait.owned : RouteAwait → Option (Option RecipientRule)
  | .listing _ => none
  | .reading _ _ own | .removing _ _ own => some (some own)
  | .saving _ _ own => some own

/-- A rule is removed for a retired mailbox, and saved for one in use. -/
def RouteAwait.Intended : RouteAwait → Prop
  | .removing _ current _ => current.retiredAt.isSome = true
  | .saving _ current _ => current.retiredAt = none
  | _ => True

variable (ports id) in
/-- What is known while a call of the mailbox's own attempt is in flight, and
    what its response says. -/
structure InFlight (s : Store) (zones : RuleZones) (reply : Option RouteReply)
    (call : RouteAwait) : Prop where
  zone : ZoneStored s id call.attempt.zoneId
  seen : Seen s id call.lastRead
  intended : call.Intended
  pending : reply = none → ∀ own, call.owned = some own → OnlyNamed ports id zones own
  listed : ∀ rules, reply = some (.list (.ok rules)) → ∀ zoneId rule,
    Named ports id zones zoneId rule →
      ∃ rule' ∈ rules, rule'.id = rule.id ∧ rule'.name = some (ports.ownerPrefix ++ id)
  read : ∀ fresh, reply = some (.read (.ok fresh)) → OnlyNamed ports id zones fresh
  removed : reply = some (.remove (.ok ())) → OnlyNamed ports id zones none

variable {call : RouteAwait} {reply : Option RouteReply}

theorem InFlight.shrink (h : InFlight ports id s zones reply call)
    (hshrinks : Shrinks ports id zones zones') : InFlight ports id s zones' reply call where
  zone := h.zone
  seen := h.seen
  intended := h.intended
  pending hreply own hown := hshrinks.onlyNamed (h.pending hreply own hown)
  listed rules hreply zoneId rule hnamed := by
    obtain ⟨rule', hnamed', hid⟩ := hshrinks zoneId rule hnamed
    rw [← hid]
    exact h.listed rules hreply zoneId rule' hnamed'
  read fresh hreply := hshrinks.onlyNamed (h.read fresh hreply)
  removed hreply := hshrinks.onlyNamed (h.removed hreply)

theorem Administers.inFlight (h : Administers s s') (hcall : InFlight ports id s zones reply call) :
    InFlight ports id s' zones reply call :=
  { hcall with zone := h.zoneStored hcall.zone, seen := h.seen hcall.seen }

/-- A call that is to be made. -/
theorem InFlight.awaited (hzone : ZoneStored s id call.attempt.zoneId)
    (hseen : Seen s id call.lastRead) (hintended : call.Intended)
    (hown : ∀ own, call.owned = some own → OnlyNamed ports id zones own) :
    InFlight ports id s zones none call where
  zone := hzone
  seen := hseen
  intended := hintended
  pending _ := hown
  listed _ hreply := absurd hreply (by simp)
  read _ hreply := absurd hreply (by simp)
  removed hreply := absurd hreply (by simp)

/-- A call that has failed. -/
theorem InFlight.failed (h : InFlight ports id s zones reply call) (e : RecipientRuleError) :
    InFlight ports id s zones (some (call.failure e)) call where
  zone := h.zone
  seen := h.seen
  intended := h.intended
  pending hreply := absurd hreply (by simp)
  listed rules hreply := by cases call <;> simp [RouteAwait.failure] at hreply
  read fresh hreply := by cases call <;> simp [RouteAwait.failure] at hreply
  removed hreply := by cases call <;> simp [RouteAwait.failure] at hreply

/-! ### Steps of an attempt -/

variable {a : RouteAttempt} {current : AccountAddress} {now : Instant} {out : RouteOutcome}

theorem Confirms.recorded {saved : RecipientRule} (h : Confirms ports s a current saved now s' out)
    (hs : Recorded ports id s zones) : Recorded ports id s' zones := by
  cases h with
  | refused => exact hs.unsettle a.id rfl
  | confirmed => exact (hs.unsettle a.id rfl).unsettle a.id rfl

/-- Settling the route of the mailbox itself. -/
theorem Settles.recorded (h : Settles ports s a current now own s' out) (hid : a.id = id)
    (hs : Recorded ports id s zones) (hseen : Seen s id current)
    (hown : OnlyNamed ports id zones own) : Recorded ports id s' zones := by
  cases h with
  | remove => exact hs
  | removed hret => exact hid ▸ (hid ▸ hs).remove (hid ▸ hseen.retired hret) (hid ▸ hown)
  | confirm _ _ _ _ _ hconfirms => exact hconfirms.recorded hs
  | save => exact hs

theorem Settles.inFlight {next : RouteAwait}
    (h : Settles ports s a current now own s' (.awaits next))
    (hzone : ZoneStored s id a.zoneId) (hseen : Seen s id current)
    (hown : OnlyNamed ports id zones own) : InFlight ports id s' zones none next := by
  cases h with
  | remove rule hret =>
    refine .awaited hzone hseen hret ?_
    intro own' heq
    cases heq
    exact hown
  | confirm _ _ _ _ _ hconfirms => nomatch hconfirms
  | save _ hnone =>
    refine .awaited hzone hseen hnone ?_
    intro own' heq
    cases heq
    exact hown

/-- Settling the route of another mailbox. -/
theorem Settles.recorded_other (h : Settles ports s a current now own s' out) (hne : a.id ≠ id)
    (hs : Recorded ports id s zones) : Recorded ports id s' zones := by
  cases h with
  | remove => exact hs
  | removed => exact hs.write_other hne
  | confirm _ _ _ _ _ hconfirms => exact hconfirms.recorded hs
  | save => exact hs

/-- Settling the route of any mailbox. -/
theorem Settles.kept (h : Settles ports s a current now own s' out)
    (hs : Recorded ports id s zones)
    (hown : a.id = id → ZoneStored s id a.zoneId ∧ Seen s id current ∧
      OnlyNamed ports id zones own) :
    Recorded ports id s' zones ∧ ∀ next, out = .awaits next → next.attempt.id = id →
      InFlight ports id s' zones none next := by
  by_cases hid : a.id = id
  · obtain ⟨hzone, hseen, hnamed⟩ := hown hid
    refine ⟨h.recorded hid hs hseen hnamed, ?_⟩
    intro next heq _
    subst heq
    exact h.inFlight hzone hseen hnamed
  · -- another mailbox: neither this route nor its rule is written
    refine ⟨h.recorded_other hid hs, ?_⟩
    intro next heq hnext
    subst heq
    rw [h.sound.2] at hnext
    exact absurd hnext hid

/-- The list shows every rule with the name, and what passes the checks is the
    only candidate. -/
theorem InFlight.onlyNamed {rules : List RecipientRule}
    (h : InFlight ports id s zones (some (.list (.ok rules))) (.listing a)) (hid : a.id = id)
    (hcheck : a.checkRules ports rules = .ok own) : OnlyNamed ports id zones own := by
  intro zoneId rule hnamed
  obtain ⟨rule', hrule', hsame, hname⟩ := h.listed rules rfl zoneId rule hnamed
  have hcandidate : rule' ∈ a.candidates ports rules := by
    refine List.mem_filter.mpr ⟨hrule', ?_⟩
    simp [RouteAttempt.owner, hid, hname]
  rw [(RouteAttempt.checkRules_snapshot hcheck).candidates] at hcandidate
  rw [Option.mem_toList.mp hcandidate, ← hsame]
  rfl

/-- **Resuming.** -/
theorem Resumes.kept {answer : RouteReply} (h : Resumes ports s now call answer s' out)
    (hs : Recorded ports id s zones)
    (hcall : call.attempt.id = id → InFlight ports id s zones (some answer) call) :
    Recorded ports id s' zones ∧ ∀ next, out = .awaits next → next.attempt.id = id →
      InFlight ports id s' zones none next := by
  cases h with
  | failed => exact ⟨hs, fun _ hout => absurd hout (by simp)⟩
  | refused => exact ⟨hs, fun _ hout => absurd hout (by simp)⟩
  | gone => exact ⟨hs, fun _ hout => absurd hout (by simp)⟩
  | changed => exact ⟨hs, fun _ hout => absurd hout (by simp)⟩
  | found a rules current own hcheck hread =>
    refine ⟨hs, ?_⟩
    intro next heq hid
    cases heq
    have hin := hcall hid
    refine .awaited hin.zone (hs.seen (hid ▸ hread)) trivial ?_
    intro own' heq
    cases heq
    -- the listing has passed `checkRules`, so only `own` bears the name
    exact hin.onlyNamed hid hcheck
  | unlisted a rules current _ _ hcheck hread hsettles =>
    apply hsettles.kept hs
    intro hid
    have hin := hcall hid
    exact ⟨hin.zone, hs.seen (hid ▸ hread), hin.onlyNamed hid hcheck⟩
  | reread a current own fresh _ _ hpermitted hsettles =>
    apply hsettles.kept hs
    intro hid
    -- the rule read again is the one the zone holds under that id
    have hin := hcall hid
    exact ⟨hin.zone, hin.seen, hin.read fresh rfl⟩
  | removed a current own =>
    refine ⟨?_, fun _ hout => absurd hout (by simp)⟩
    by_cases hid : a.id = id
    · -- the rule is gone and the route says so, so the zone has none by this name
      have hin := hcall hid
      subst hid
      exact hs.remove (hin.seen.retired hin.intended) (hin.removed rfl)
    · exact hs.write_other hid
  | saved a current own rule _ _ hconfirms =>
    refine ⟨hconfirms.recorded hs, ?_⟩
    intro next heq
    subst heq
    nomatch hconfirms

/-- A mailbox is read together with its route. -/
theorem getAddress_route {mailbox : AccountAddress} (h : getAddress s id = some mailbox) :
    ∃ row ∈ s.routes, row.mailbox_id = id ∧ row.zone_id = mailbox.routing.zoneId := by
  obtain ⟨address, -, hread⟩ := List.exists_of_findSome?_eq_some h
  split at hread
  · next hid =>
    obtain ⟨row, hfind, rfl⟩ := Option.map_eq_some_iff.mp hread
    refine ⟨row, Table.find?_mem hfind, ?_, rfl⟩
    have hrow : row.mailbox_id = address.id := by simpa using Table.find?_prop hfind
    exact hrow.trans (by simpa using hid)
  · exact absurd hread (by simp)

theorem Seen.zone (h : Seen s id current) (id' zoneId : String) :
    Seen (writeRoute s id' (.zone zoneId)) id current := by
  constructor
  · exact h.retired
  · intro hnone row' hrow' hid hsettled
    obtain ⟨row, hrow, rfl⟩ := mem_writeRoute.mp hrow'
    -- the columns of a settled route are not assigned
    by_cases hrowid : row.mailbox_id = id'
    · rw [if_pos (by simpa using hrowid)] at hid hsettled
      exact h.unretired hnone row hrow hid ⟨hsettled.state, hsettled.rule, hsettled.retry⟩
    · rw [if_neg (by simpa using hrowid)] at hid hsettled
      exact h.unretired hnone row hrow hid hsettled

/-- **Beginning.** -/
theorem Begins.kept {id' : String} (h : Begins ports s id' s' out)
    (hs : Recorded ports id s zones) :
    Recorded ports id s' zones ∧ ∀ next, out = .awaits next → next.attempt.id = id →
      InFlight ports id s' zones none next := by
  cases h with
  | gone => exact ⟨hs, fun _ hout => absurd hout (by simp)⟩
  | unconfigured => exact ⟨hs, fun _ hout => absurd hout (by simp)⟩
  | listing mailbox zoneId hread hzone =>
    by_cases hid : id' = id
    · subst hid
      obtain ⟨row, hrow, hid, hstored⟩ := getAddress_route hread
      -- the zone that is written is the one already stored, if there is one
      have hkeeps : (RouteWrite.zone zoneId).KeepsZone s id' := by
        rintro _ zoneId' ⟨⟩ ⟨row', hrow', hid', hzone'⟩
        obtain rfl := s.routes.eq_of_clash hrow hrow' (hid.trans hid'.symm)
        rcases hzone with hsome | ⟨hnone, -⟩
        · exact Option.some.inj (hsome.symm.trans (hstored.symm.trans hzone'))
        · rw [← hstored, hzone'] at hnone
          exact absurd hnone (by simp)
      constructor
      · refine hs.write (fun _ => hkeeps) fun _ row _ hsettled => .inl ?_
        exact ⟨hsettled.state, hsettled.rule, hsettled.retry⟩
      · intro next heq _
        cases heq
        -- the listing is awaited for the route as it is stored
        refine .awaited ?_ ((hs.seen hread).zone id' zoneId) trivial (by simp [RouteAwait.owned])
        exact ⟨_, mem_writeRoute.mpr ⟨row, hrow, rfl⟩,
          by simp [hid, RouteWrite.assign, RouteAwait.attempt]⟩
    · refine ⟨hs.write_other hid, ?_⟩
      intro next heq hnext
      cases heq
      exact absurd hnext hid

/-! ### What becomes of a call -/

/-- The effect of a call on the zones, by the call. -/
theorem answer_ok {freshId : String} {answer : RouteReply}
    (h : zones.answer ports freshId call = some (zones', answer)) :
    (∃ a, call = .listing a ∧ zones' = zones ∧ answer = .list (.ok (zones a.zoneId).rows)) ∨
    (∃ a current own, call = .reading a current own ∧ zones' = zones ∧
      answer = .read (.ok ((zones a.zoneId).find? (·.id = own.id)))) ∨
    (∃ a current own, call = .removing a current own ∧ answer = .remove (.ok ()) ∧
      zones.perform freshId (.deleteRule a.zoneId own.id) = some (zones', answer)) ∨
    ∃ a current own rule, call = .saving a current own ∧ answer = .save (.ok rule) ∧
      zones.perform freshId (saveRule a.zoneId a.mailbox.address.val ports.workerName
        (a.owner ports) (own.map (·.id))) = some (zones', answer) := by
  cases call with
  | listing a =>
    obtain ⟨rfl, rfl⟩ := Lts.some_pair_inj h
    exact .inl ⟨a, rfl, rfl, rfl⟩
  | reading a current own =>
    obtain ⟨rfl, rfl⟩ := Lts.some_pair_inj h
    exact .inr (.inl ⟨a, current, own, rfl, rfl, rfl⟩)
  | removing a current own =>
    obtain ⟨rfl, rfl⟩ := Lts.some_pair_inj h
    exact .inr (.inr (.inl ⟨a, current, own, rfl, rfl, rfl⟩))
  | saving a current own =>
    refine .inr (.inr (.inr ?_))
    have hperform : zones.perform freshId (saveRule a.zoneId a.mailbox.address.val
      ports.workerName (a.owner ports) (own.map (·.id))) = some (zones', answer) := h
    -- creating and updating a rule both answer with the rule
    suffices hsave : ∃ rule, answer = .save (.ok rule) by
      obtain ⟨rule, hrule⟩ := hsave
      exact ⟨a, current, own, rule, rfl, hrule, hperform⟩
    cases own with
    | none =>
      obtain ⟨rules, -, heq⟩ := Option.map_eq_some_iff.mp hperform
      exact ⟨_, (Prod.mk.inj heq).2.symm⟩
    | some own =>
      simp only [saveRule, Option.map_some, RuleZones.perform] at hperform
      split at hperform
      · exact ⟨_, (Lts.some_pair_inj hperform).2.symm⟩
      · exact absurd hperform (by simp)

/-- The calls of another mailbox's attempt give no rule the name. -/
theorem shrinks_answer_other {freshId : String} {answer : RouteReply}
    (h : zones.answer ports freshId call = some (zones', answer)) (hne : call.attempt.id ≠ id) :
    Shrinks ports id zones zones' := by
  rcases answer_ok h with ⟨a, -, rfl, -⟩ | ⟨a, current, own, -, rfl, -⟩ |
    ⟨a, current, own, rfl, -, hperform⟩ | ⟨a, current, own, rule, rfl, -, hperform⟩
  · exact .refl _
  · exact .refl _
  · exact shrinks_perform hperform (by simp [RuleWrite.name])
  · apply shrinks_perform hperform
    intro hname
    rw [saveRule_name] at hname
    exact hne (String.append_right_inj _ |>.mp (Option.some.inj hname))

/-- **A call of the mailbox's own attempt.** -/
theorem InFlight.answered {freshId : String} {answer : RouteReply}
    (h : InFlight ports id s zones none call) (hid : call.attempt.id = id)
    (hs : Recorded ports id s zones) (hone : OneNamed ports id zones)
    (hanswer : zones.answer ports freshId call = some (zones', answer)) :
    OneNamed ports id zones' ∧ Recorded ports id s zones' ∧
      InFlight ports id s zones' (some answer) call := by
  -- every rule with the name is in the zone of the attempt
  have hplaced : ∀ zoneId rule, Named ports id zones zoneId rule →
      zoneId = call.attempt.zoneId := fun zoneId rule hnamed =>
    ZoneStored.unique (hs.placed zoneId rule hnamed) h.zone
  rcases answer_ok hanswer with ⟨a, rfl, rfl, rfl⟩ | ⟨a, current, own, rfl, rfl, rfl⟩ |
    ⟨a, current, own, rfl, rfl, hperform⟩ | ⟨a, current, own, rule, rfl, rfl, hperform⟩
  · refine ⟨hone, hs, h.zone, h.seen, h.intended, by simp, ?_, by simp, by simp⟩
    intro rules heq zoneId rule hnamed
    cases heq
    obtain rfl := hplaced zoneId rule hnamed
    exact ⟨rule, hnamed.1, rfl, hnamed.2⟩
  · refine ⟨hone, hs, h.zone, h.seen, h.intended, by simp, by simp, ?_, by simp⟩
    intro fresh heq zoneId rule hnamed
    cases heq
    have hown : own.id = rule.id := Option.some.inj (h.pending rfl _ rfl zoneId rule hnamed)
    obtain rfl := hplaced zoneId rule hnamed
    have hfind : (zones' a.zoneId).find? (·.id = own.id) = some rule := by
      refine Table.find?_eq_some_of_mem (fun r r' hr hr' => ?_) hnamed.1 (by simpa using hown.symm)
      simp only [decide_eq_true_eq] at hr hr'
      exact hr.trans hr'.symm
    rw [hfind]
    rfl
  · have hshrinks : Shrinks ports id zones zones' :=
      shrinks_perform hperform (by simp [RuleWrite.name])
    refine ⟨hone.shrink hshrinks, hs.shrink hshrinks, h.zone, h.seen, h.intended,
      by simp, by simp,
      by simp, ?_⟩
    intro _ zoneId rule hnamed
    rcases named_perform hperform hnamed with ⟨hold, hkept⟩ | ⟨-, hname, -⟩
    · have hown := h.pending rfl _ rfl zoneId rule hold
      exact absurd ⟨hplaced zoneId rule hold, hown⟩ hkept
    · exact absurd hname (by simp [RuleWrite.name])
  · -- the rules with the name are now the saved one
    have hsaved : ∀ zoneId rule', Named ports id zones' zoneId rule' →
        zoneId = a.zoneId ∧ rule'.id = (own.map (·.id)).getD freshId := by
      intro zoneId rule' hnamed
      rcases named_perform hperform hnamed with ⟨hold, -⟩ | ⟨hzone, -, hid'⟩
      · have hown := h.pending rfl _ rfl zoneId rule' hold
        exact ⟨hplaced zoneId rule' hold, by rw [hown]; rfl⟩
      · simp only [saveRule_zoneId, saveRule_target] at hzone hid'
        exact ⟨hzone, hid'⟩
    refine ⟨?_, ⟨?_, ?_⟩, h.zone, h.seen, h.intended, by simp, by simp, by simp, by simp⟩
    · intro zoneId zoneId' rule₁ rule₂ hnamed hnamed'
      rw [(hsaved zoneId rule₁ hnamed).2, (hsaved zoneId' rule₂ hnamed').2]
    · intro zoneId rule₁ hnamed
      rw [(hsaved zoneId rule₁ hnamed).1]
      exact h.zone
    · intro row hrow hrowid hsettled
      exact absurd hsettled (h.seen.unretired h.intended row hrow hrowid)

/-! ### Every state -/

variable (ports id) in
/-- **The invariant.** -/
structure Consistent (w : RuleWorld) : Prop where
  one : OneNamed ports id w.zones
  recorded : Recorded ports id w.store w.zones
  flight : ∀ p row rest call, w.pass = some p → p.point = .attempting row rest call →
    call.attempt.id = id → InFlight ports id w.store w.zones w.reply call

theorem Consistent.init {w : RuleWorld} (h : (ruled ports id).init w) : Consistent ports id w := by
  obtain ⟨hstore, hpass, -, hzones⟩ := h
  have hnone : ∀ zoneId rule, ¬ Named ports id w.zones zoneId rule := fun zoneId rule hnamed =>
    hzones zoneId rule hnamed.1 hnamed.2
  refine ⟨?_, ⟨?_, ?_⟩, ?_⟩
  · intro zoneId _ rule _ hnamed
    exact absurd hnamed (hnone zoneId rule)
  · intro zoneId rule hnamed
    exact absurd hnamed (hnone zoneId rule)
  · intro row hrow
    rw [hstore] at hrow
    exact absurd hrow Table.mem_empty
  · intro p _ _ _ hp
    exact absurd hp (by simp [hpass])

theorem Consistent.command {w : RuleWorld} (h : Consistent ports id w) {c : Command}
    (hc : ∀ id' write, c ≠ .writeRoute id' write) :
    Consistent ports id { w with store := w.store.exec c } := by
  have hadministers := exec_administers w.store hc
  refine ⟨h.one, hadministers.recorded h.recorded, ?_⟩
  intro p row rest call hp hpoint hid
  exact hadministers.inFlight (h.flight p row rest call hp hpoint hid)

theorem Consistent.shrink {w : RuleWorld} (h : Consistent ports id w)
    (hshrinks : Shrinks ports id w.zones zones) :
    Consistent ports id { w with zones } where
  one := h.one.shrink hshrinks
  recorded := h.recorded.shrink hshrinks
  flight p row rest call hp hpoint hid := (h.flight p row rest call hp hpoint hid).shrink hshrinks

/-- What becomes of the call in flight. -/
theorem Consistent.resolve {w w' : RuleWorld} {p : RoutePass} {row : DueRoute}
    {rest : List DueRoute} {fate : CallFate} (h : Consistent ports id w) (hp : w.pass = some p)
    (hpoint : p.point = .attempting row rest call) (hreply : w.reply = none)
    (hresolve : w.resolve ports call fate = some w') : Consistent ports id w' := by
  -- the pass is suspended at this call, and at no other
  have honly : ∀ p' row' rest' call', w.pass = some p' →
      p'.point = .attempting row' rest' call' → call' = call := by
    intro p' row' rest' call' hp' hpoint'
    obtain rfl := Option.some.inj (hp'.symm.trans hp)
    rw [hpoint] at hpoint'
    injection hpoint' with _ _ heq
    exact heq.symm
  have hcall : call.attempt.id = id → InFlight ports id w.store w.zones none call := fun hid =>
    hreply ▸ h.flight p row rest call hp hpoint hid
  have hanswered : ∀ freshId zones' answer reply',
      w.zones.answer ports freshId call = some (zones', answer) →
      (reply' = answer ∨ ∃ e, reply' = call.failure e) →
      Consistent ports id { w with zones := zones', reply := some reply' } := by
    intro freshId zones' answer reply' hanswer hreply'
    by_cases hid : call.attempt.id = id
    · obtain ⟨hone, hrecorded, hin⟩ := (hcall hid).answered hid h.recorded h.one hanswer
      refine ⟨hone, hrecorded, ?_⟩
      intro p' row' rest' call' hp' hpoint' _
      obtain rfl := honly p' row' rest' call' hp' hpoint'
      rcases hreply' with rfl | ⟨e, rfl⟩
      · exact hin
      · exact hin.failed e
    · have hshrinks : Shrinks ports id w.zones zones' := shrinks_answer_other hanswer hid
      refine ⟨h.one.shrink hshrinks, h.recorded.shrink hshrinks, ?_⟩
      intro p' row' rest' call' hp' hpoint' hid'
      obtain rfl := honly p' row' rest' call' hp' hpoint'
      exact absurd hid' hid
  cases fate with
  | performed freshId =>
    obtain ⟨⟨zones', answer⟩, hanswer, rfl⟩ := Option.map_eq_some_iff.mp hresolve
    exact hanswered freshId zones' answer _ hanswer (.inl rfl)
  | refused e =>
    obtain rfl := Option.some.inj hresolve
    refine ⟨h.one, h.recorded, ?_⟩
    intro p' row' rest' call' hp' hpoint' hid
    obtain rfl := honly p' row' rest' call' hp' hpoint'
    exact (hcall hid).failed e
  | lost freshId e =>
    obtain ⟨⟨zones', answer⟩, hanswer, rfl⟩ := Option.map_eq_some_iff.mp hresolve
    exact hanswered freshId zones' answer _ hanswer (.inr ⟨e, rfl⟩)

/-- A step of the pass. -/
theorem Consistent.pass {w : RuleWorld} {p : RoutePass} {next : Option RoutePass}
    (h : Consistent ports id w) (hp : w.pass = some p)
    (hstep : p.step ports w.store (w.reply.getD .unit) = some (s, next)) :
    Consistent ports id { w with store := s, pass := next, reply := none } := by
  rcases RoutePass.step_cases hstep with ⟨-, rfl, rfl⟩ | ⟨-, rfl, rfl⟩ |
    ⟨row, rest, s₁, out, hattempt, rfl, rfl⟩
  · refine ⟨h.one, h.recorded, ?_⟩
    intro p' row rest call heq hpoint
    cases heq
    exact absurd hpoint (by simp [RoutePass.goto])
  · refine ⟨h.one, h.recorded, ?_⟩
    intro p' row rest call heq
    cases heq
  · -- what the attempt leaves
    have hkept : Recorded ports id s₁ w.zones ∧ ∀ call, out = .awaits call →
        call.attempt.id = id → InFlight ports id s₁ w.zones none call := by
      rcases RoutePass.attempt_cases hattempt with ⟨-, hbegin⟩ | ⟨call, hpoint, hresume⟩
      · exact (beginRoute_begins hbegin).kept h.recorded
      · cases hreply : w.reply with
        | some answer =>
          rw [hreply] at hresume
          refine (resumeRoute_resumes hresume).kept h.recorded fun hid => ?_
          exact hreply ▸ h.flight p row rest call hp hpoint hid
        | none =>
          -- a suspended attempt is not resumed without a response
          rw [hreply] at hresume
          exact absurd hresume (by cases call <;> simp [resumeRoute])
    cases out with
    | awaits call =>
      refine ⟨h.one, hkept.1, ?_⟩
      intro p' row' rest' call' heq hpoint hid
      cases heq
      injection hpoint with _ _ heq
      subst heq
      exact hkept.2 call rfl hid
    | returns seen =>
      refine ⟨h.one, hkept.1, ?_⟩
      intro p' row' rest' call' heq hpoint
      cases heq
      exact absurd hpoint (by simp [RoutePass.proceed, RoutePass.goto])
    | fails error seen =>
      refine ⟨h.one, hkept.1.unsettle row.mailbox_id rfl, ?_⟩
      intro p' row' rest' call' heq hpoint
      cases heq
      exact absurd hpoint (by simp [RoutePass.proceed, RoutePass.goto])

theorem Consistent.step {w w' : RuleWorld} {l : RuleLabel} (h : Consistent ports id w)
    (hstep : (ruled ports id).step w l = some w') : Consistent ports id w' := by
  rcases ruled_step_cases hstep with ⟨c, hc, rfl⟩ | ⟨zoneId, rules, hleaves, rfl⟩ |
    ⟨nowMs, rfl⟩ | ⟨p, row, rest, call, fate, hp, hpoint, hreply, hresolve⟩ |
    ⟨p, s, next, hp, hpass, rfl⟩ | rfl
  · exact h.command hc
  · exact h.shrink (shrinks_of_leavesName hleaves)
  · refine ⟨h.one, h.recorded, ?_⟩
    intro p row rest call heq hpoint
    cases heq
    exact absurd hpoint (by simp)
  · exact h.resolve hp hpoint hreply hresolve
  · exact h.pass hp hpass
  · refine ⟨h.one, h.recorded, ?_⟩
    intro p row rest call heq
    cases heq

/-- **One rule for each mailbox, and none left behind.** In every state that
    is reached, by any interleaving of passes, commands, failures, lost
    responses and crashes, a zone has at most one rule with the owner name of
    the mailbox, and has none once the route of the mailbox is settled. -/
theorem one_rule_per_mailbox (ports : RecipientRoutingPorts) (id : String) {w : RuleWorld}
    (h : (ruled ports id).Reachable w) :
    (∀ zoneId, (namedRules ports id w.zones zoneId).length ≤ 1) ∧
      ∀ row ∈ w.store.routes, row.mailbox_id = id → row.Settled →
        ∀ zoneId, namedRules ports id w.zones zoneId = [] := by
  have hw : Consistent ports id w :=
    h.invariant (P := Consistent ports id) (fun _ => .init) fun _ _ _ _ hw hstep => hw.step hstep
  refine ⟨hw.one.length_le, ?_⟩
  intro row hrow hid hsettled zoneId
  obtain ⟨-, hnone⟩ := hw.recorded.settled row hrow hid hsettled
  refine List.eq_nil_iff_forall_not_mem.mpr fun rule hrule => ?_
  exact hnone.none (mem_namedRules.mp hrule)

end machine

end uniqueness

/-! ### A lost creation

  The response to the creation of the sample mailbox's rule is lost, and the
  mailbox is retired; the next pass finds the rule and removes it. -/

namespace Sample

def unruled : RuleWorld where
  store := Store.empty
  zones _ := .empty
  pass := none
  reply := none

theorem unruled_reachable : (ruled routingPorts "mailbox-1").Reachable unruled :=
  .init ⟨rfl, rfl, rfl, fun _ _ hrule => absurd hrule Table.mem_empty⟩

def timeout : RecipientRuleError := { message := "TimeoutError", retryable := true }

def lostCreationLabels : List RuleLabel :=
  [.command (.createAddress "mailbox-1" "agent" "example.com" none 10 true), .start 20,
    .step, .step,
    .call (.performed "rule-0"), .step, .call (.lost "rule-1" timeout), .step, .step,
    .command (.retireAddress "mailbox-1" 30), .start 40, .step, .step, .call (.performed "rule-2"),
    .step, .call (.performed "rule-2"), .step, .call (.performed "rule-2"), .step]

end Sample

open Sample in
theorem one_rule_per_mailbox_lost_creation :
    ∃ w, (ruled routingPorts "mailbox-1").Run unruled lostCreationLabels w ∧
      (∀ zoneId, (namedRules routingPorts "mailbox-1" w.zones zoneId).length ≤ 1) ∧
      ∀ row ∈ w.store.routes, row.mailbox_id = "mailbox-1" → row.Settled →
        ∀ zoneId, namedRules routingPorts "mailbox-1" w.zones zoneId = [] := by
  have hfire : ((ruled routingPorts "mailbox-1").fire unruled lostCreationLabels).isSome =
      true := by
    decide +kernel
  obtain ⟨w, hw⟩ := Option.isSome_iff_exists.mp hfire
  have hrun := Lts.Machine.Run.of_fire hw
  exact ⟨w, hrun, one_rule_per_mailbox routingPorts "mailbox-1"
    (hrun.reachable unruled_reachable)⟩

end Umail
