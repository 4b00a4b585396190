import Umail.Account.RecipientRouting

/-! # Retirement during a reconcile

  An attempt reads its mailbox, and writes its outcome some calls later. When
  the mailbox is retired in between, the route has to stay due: its rule is
  still to be removed. The confirmation of a rule and the retryable failure
  see to that. The failure that is not retried clears the retry time of the
  retirement, and these attempts are the only ones that do.
-/

namespace Umail

open Relational

section reconcile
variable [Unicode]

/-! ### Attempts that have not seen the retirement -/

/-- The route of the mailbox has a retry time. -/
def Due (s : Store) (id : String) : Prop :=
  ∃ r ∈ s.routes, r.mailbox_id = id ∧ r.retry_after.isSome = true

/-- The attempt ends, and its last read saw the mailbox unretired. -/
def RouteOutcome.EndsUnaware : RouteOutcome → Prop
  | .awaits _ => False
  | .returns seen | .fails _ seen => ∃ m, seen = some m ∧ m.retiredAt = none

instance : DecidablePred RouteOutcome.EndsUnaware
  | .awaits _ => inferInstanceAs (Decidable False)
  | .returns seen | .fails _ seen =>
    decidable_of_iff (seen.any (·.retiredAt.isNone) = true)
      (by simp [RouteOutcome.EndsUnaware, Option.any_eq_true])

/-- The reply ends the attempt for good: the client fails and says that a
    retry is no use, or what it returns fails an ownership check. -/
def RouteAwait.refusedBy (ports : RecipientRoutingPorts) : RouteAwait → RouteReply → Bool
  | .listing _, .list (.error e) => !e.retryable
  | .listing a, .list (.ok rules) => (a.checkRules ports rules).toOption.isNone
  | .reading _ _ _, .read (.error e) => !e.retryable
  | .reading a _ _, .read (.ok (some fresh)) => !a.permitted ports fresh
  | .removing _ _ _, .remove (.error e) => !e.retryable
  | .saving _ _ _, .save (.error e) => !e.retryable
  | .saving a _ _, .save (.ok saved) => !a.permitted ports saved || !a.settled ports saved
  | _, _ => false

/-- The label of a pool of passes. -/
abbrev RouteLabel := Lts.PoolLabel Command Instant RouteReply

/-- An attempt that ends unaware of a retirement leaves the route due. -/
def RetirementKept (ports : RecipientRoutingPorts) (w : Lts.Pool Store RoutePass)
    (l : RouteLabel) (w' : Lts.Pool Store RoutePass) : Prop :=
  ∀ pid reply p row rest s out, l = .step pid reply → w.procs pid = some p →
    p.attempt ports w.shared reply = some (row, rest, s, out) → out.EndsUnaware →
    retiredNow w.shared row.mailbox_id = true → Due w'.shared row.mailbox_id

/-- No attempt is refused for good between a retirement and the read that would see it. -/
def Unrefused (ports : RecipientRoutingPorts) (w : Lts.Pool Store RoutePass)
    (l : RouteLabel) : Prop :=
  ∀ pid reply p row rest call, l = .step pid reply → w.procs pid = some p →
    p.point = .attempting row rest call → call.lastRead.retiredAt = none →
    retiredNow w.shared row.mailbox_id = true → call.refusedBy ports reply = false

/-! ### Route writes -/

variable {ports : RecipientRoutingPorts} {s s' : Store} {id : String}

theorem writeRoute_rows (s : Store) (id : String) (write : RouteWrite) :
    (writeRoute s id write).routes.rows =
      s.routes.rows.map (fun r =>
        if decide (r.mailbox_id = id) then write.assign s id r else r) := rfl

/-- The mailbox has a route. -/
def Routed (s : Store) (id : String) : Prop := ∃ r ∈ s.routes, r.mailbox_id = id

theorem Routed.exec (h : Routed s id) (c : Command) : Routed (s.exec c) id := by
  obtain ⟨r, hr, hid⟩ := h
  obtain ⟨r', hr', hsame⟩ := (exec_routes s c).exists_mem hr
  exact ⟨r', hr', hsame.trans hid⟩

theorem Routed.write (h : Routed s id) (id' : String) (write : RouteWrite) :
    Routed (writeRoute s id' write) id := h.exec (.writeRoute id' write)

theorem Routed.of_write {id' : String} {write : RouteWrite}
    (h : Routed (writeRoute s id' write) id) : Routed s id := by
  obtain ⟨r', hr', hid⟩ := h
  obtain ⟨r, hr, heq⟩ := (Table.mem_of_map (writeRoute_rows s id' write)).mp hr'
  refine ⟨r, hr, Eq.trans ?_ hid⟩
  rw [← heq]
  split
  · cases write <;> rfl
  · rfl

/-- A write that sets a retry time leaves the route due. -/
theorem Routed.due_write (h : Routed s id) {write : RouteWrite}
    (hset : ∀ r, (write.assign s id r).retry_after.isSome = true) :
    Due (writeRoute s id write) id := by
  obtain ⟨r, hr, hid⟩ := h
  refine ⟨write.assign s id r, ?_, ?_, hset r⟩
  · exact (Table.mem_of_map (writeRoute_rows s id write)).mpr ⟨r, hr, by simp [hid]⟩
  · cases write <;> exact hid

/-- A write that clears the retry time leaves the route not due. -/
theorem not_due_write {write : RouteWrite}
    (hclear : ∀ r, (write.assign s id r).retry_after = none) :
    ¬ Due (writeRoute s id write) id := by
  intro ⟨r', hr', hid, hdue⟩
  obtain ⟨r, -, heq⟩ := (Table.mem_of_map (writeRoute_rows s id write)).mp hr'
  by_cases hr : r.mailbox_id = id
  · rw [← heq] at hdue
    simp [hr, hclear r] at hdue
  · rw [← heq] at hid
    simp only [hr, decide_false, Bool.false_eq_true, if_false] at hid

@[simp] theorem retiredNow_write (s : Store) (id id' : String) (write : RouteWrite) :
    retiredNow (writeRoute s id' write) id = retiredNow s id := rfl

/-- The mailbox as it is read, against the column the confirmation tests. -/
theorem getAddress_retired {m : AccountAddress} (h : getAddress s id = some m) :
    retiredNow s id = m.retiredAt.isSome := by
  obtain ⟨a, ha, hread⟩ := List.exists_of_findSome?_eq_some h
  split at hread
  · next hid =>
    obtain ⟨r, -, hm⟩ := Option.map_eq_some_iff.mp hread
    have hfind : s.addresses.find? (·.id = id) = some a :=
      Table.find?_eq_some_of_mem (fun a b hpa hpb => Or.inl (by
        simp only [decide_eq_true_eq] at hpa hpb
        exact hpa.trans hpb.symm)) ha hid
    simp [retiredNow, hfind, ← hm, toAddress]
  · exact absurd hread (by simp)

/-! ### How an attempt ends -/

/-- A call in flight removes a rule for a mailbox it read as retired only. -/
def RouteAwait.Sound : RouteAwait → Prop
  | .removing _ current _ => current.retiredAt.isSome = true
  | _ => True

/-- The ends of an attempt that is unaware of a retirement. -/
inductive EndsDue (s' : Store) (id : String) : RouteOutcome → Prop where
  /-- The failure is retried. -/
  | failed (error : RecipientRuleError) (seen : Option AccountAddress) :
      error.retryable = true → EndsDue s' id (.fails error seen)
  /-- The rule is confirmed, in a store where the retirement is visible. -/
  | confirmed (s₁ : Store) (ruleId : String) (now : Instant) (seen : Option AccountAddress) :
      s' = writeRoute s₁ id (.confirmed ruleId now) → EndsDue s' id (.returns seen)

variable {a : RouteAttempt} {current : AccountAddress} {now : Instant}

/-- A rule that is recorded is confirmed, or its attempt fails for good. -/
theorem Confirms.ends {saved : RecipientRule} {out : RouteOutcome}
    (h : Confirms ports s a current saved now s' out) :
    (!a.permitted ports saved || !a.settled ports saved) = true ∧
      (∃ e, e.retryable = false ∧ out = .fails e (some current)) ∨
    (!a.permitted ports saved || !a.settled ports saved) = false ∧
      out = .returns (some current) ∧ EndsDue s' a.id out := by
  cases h with
  | refused e hrefused hfinal => exact .inl ⟨hrefused, e, hfinal, rfl⟩
  | confirmed hconfirmed => exact .inr ⟨hconfirmed, rfl, .confirmed _ _ _ _ rfl⟩

/-- Settling ends unaware of a retirement only by confirming the rule it was given. -/
theorem Settles.unaware {own : Option RecipientRule} {out : RouteOutcome}
    (h : Settles ports s a current now own s' out) (hend : out.EndsUnaware) :
    ∃ rule, own = some rule ∧ a.settled ports rule = true ∧ current.retiredAt = none ∧
      Confirms ports s a current rule now s' out := by
  cases h with
  | remove own hret => exact absurd hend id
  | removed hret =>
    obtain ⟨m, hm, hnone⟩ := hend
    obtain rfl := Option.some.inj hm
    simp [hnone] at hret
  | confirm rule _ _ hnone hsettled hconfirms => exact ⟨rule, rfl, hsettled, hnone, hconfirms⟩
  | save own hnone => exact absurd hend id

/-- **Resuming, unaware.** An attempt that ends unaware of a retirement read
    its mailbox unretired when it was suspended; unless the reply refuses it,
    its end leaves the route due. -/
theorem resumeRoute_unaware {call : RouteAwait} {reply : RouteReply} {out : RouteOutcome}
    (hsound : call.Sound) (h : resumeRoute ports s now call reply = some (s', out))
    (hend : out.EndsUnaware) :
    call.lastRead.retiredAt = none ∧
      (call.refusedBy ports reply = false → EndsDue s' call.attempt.id out) := by
  have hfails : ∀ (e : RecipientRuleError) (m : AccountAddress), out = .fails e (some m) →
      m.retiredAt = none := by
    intro e m hout
    subst hout
    obtain ⟨m', hm, hnone⟩ := hend
    obtain rfl := Option.some.inj hm
    exact hnone
  cases resumeRoute_resumes h with
  | failed call e =>
    refine ⟨hfails e _ rfl, ?_⟩
    intro href
    refine .failed e _ ?_
    cases call <;> simpa [RouteAwait.refusedBy, RouteAwait.failure] using href
  | refused a rules e hcheck =>
    refine ⟨hfails e _ rfl, ?_⟩
    intro href
    simp [RouteAwait.refusedBy, hcheck, Except.toOption] at href
  | gone =>
    obtain ⟨m, hm, -⟩ := hend
    exact absurd hm (by simp)
  | found => exact absurd hend id
  | unlisted a rules current _ _ hcheck hread hsettles =>
    -- the mailbox is read again in this very step
    obtain ⟨rule, hown, -⟩ := hsettles.unaware hend
    exact absurd hown (by simp)
  | changed a current own fresh e hchanged hfinal =>
    refine ⟨hfails e _ rfl, ?_⟩
    intro href
    simp [RouteAwait.refusedBy, hchanged] at href
  | reread a current own fresh _ _ hpermitted hsettles =>
    obtain ⟨rule, rfl, hsettled, hnone, hconfirms⟩ := hsettles.unaware hend
    refine ⟨hnone, fun _ => ?_⟩
    rcases hconfirms.ends with ⟨hrefused, -⟩ | ⟨-, -, hdue⟩
    · simp [hpermitted rule rfl, hsettled] at hrefused
    · exact hdue
  | removed a current own =>
    obtain ⟨m, hm, hnone⟩ := hend
    obtain rfl := Option.some.inj hm
    simp [RouteAwait.Sound, hnone] at hsound
  | saved a current own saved _ _ hconfirms =>
    rcases hconfirms.ends with ⟨hrefused, e, -, hout⟩ | ⟨-, rfl, hdue⟩
    · refine ⟨hfails e current hout, ?_⟩
      intro href
      exact absurd hrefused (by simpa [RouteAwait.refusedBy] using href)
    · obtain ⟨m, hm, hnone⟩ := hend
      obtain rfl := Option.some.inj hm
      exact ⟨hnone, fun _ => hdue⟩

/-- A refused attempt fails for good, with the last read it was suspended with. -/
theorem resumeRoute_refused {call : RouteAwait} {reply : RouteReply} {out : RouteOutcome}
    (h : resumeRoute ports s now call reply = some (s', out))
    (href : call.refusedBy ports reply = true) :
    ∃ e, e.retryable = false ∧ out = .fails e (some call.lastRead) := by
  unfold RouteAwait.refusedBy at href
  split at href
  · next a e =>
    obtain ⟨rfl, rfl⟩ := Lts.some_pair_inj h
    exact ⟨e, by simpa using href, rfl⟩
  · next a rules =>
    unfold resumeRoute at h
    cases hcheck : a.checkRules ports rules with
    | ok own => simp [hcheck, Except.toOption] at href
    | error e =>
      simp only [hcheck] at h
      obtain ⟨rfl, rfl⟩ := Lts.some_pair_inj h
      refine ⟨e, ?_, rfl⟩
      -- each of its three refusals is an ownership failure
      unfold RouteAttempt.checkRules at hcheck
      simp only at hcheck
      split at hcheck
      · exact Except.error.inj hcheck ▸ rfl
      · split at hcheck
        · exact Except.error.inj hcheck ▸ rfl
        · split at hcheck
          · exact Except.error.inj hcheck ▸ rfl
          · exact absurd hcheck (by simp)
  · next a current own e =>
    obtain ⟨rfl, rfl⟩ := Lts.some_pair_inj h
    exact ⟨e, by simpa using href, rfl⟩
  · next a current own fresh =>
    unfold resumeRoute at h
    simp only [href, if_true] at h
    obtain ⟨rfl, rfl⟩ := Lts.some_pair_inj h
    exact ⟨ownershipFailure _, rfl, rfl⟩
  · next a current own e =>
    obtain ⟨rfl, rfl⟩ := Lts.some_pair_inj h
    exact ⟨e, by simpa using href, rfl⟩
  · next a current own e =>
    obtain ⟨rfl, rfl⟩ := Lts.some_pair_inj h
    exact ⟨e, by simpa using href, rfl⟩
  · next a current own saved =>
    rcases (confirmRoute_confirms (Option.some.inj h)).ends with ⟨-, hfails⟩ |
      ⟨hconfirmed, -⟩
    · exact hfails
    · -- a rule that confirms the attempt does not refuse it
      exact absurd href (by simp [hconfirmed])
  · exact absurd href (by simp)

/-! ### The pass -/

/-- The attempt at hand belongs to its row, and every row has its route. -/
def RoutePass.Sound (s : Store) (p : RoutePass) : Prop :=
  match p.point with
  | .selecting => True
  | .between rows => ∀ row ∈ rows, Routed s row.mailbox_id
  | .attempting row rest call =>
    call.Sound ∧ call.attempt.id = row.mailbox_id ∧ ∀ r ∈ row :: rest, Routed s r.mailbox_id

theorem RoutePass.Sound.mono {p : RoutePass} (h : p.Sound s)
    (hkeep : ∀ id, Routed s id → Routed s' id) : p.Sound s' := by
  unfold RoutePass.Sound at h ⊢
  split at h
  · trivial
  · exact fun row hrow => hkeep _ (h row hrow)
  · obtain ⟨hcall, hid, hrows⟩ := h
    exact ⟨hcall, hid, fun r hr => hkeep _ (hrows r hr)⟩

theorem RouteWrites.routed (h : RouteWrites s s') (hr : Routed s id) : Routed s' id := by
  induction h with
  | refl => exact hr
  | tail _ hwrite ih =>
    obtain ⟨id', write, rfl⟩ := hwrite
    exact ih.write id' write

/-- Settling calls the client with the rule it was given. -/
theorem Settles.awaits {own : Option RecipientRule} {call : RouteAwait}
    (h : Settles ports s a current now own s' (.awaits call)) :
    (∃ rule, own = some rule ∧ current.retiredAt.isSome = true ∧
      call = .removing a current rule) ∨
    (current.retiredAt = none ∧ call = .saving a current own) := by
  cases h with
  | remove rule hret => exact .inl ⟨rule, rfl, hret, rfl⟩
  | confirm rule _ _ _ _ hconfirms => nomatch hconfirms
  | save own hnone => exact .inr ⟨hnone, rfl⟩

theorem Settles.sound {own : Option RecipientRule} {call : RouteAwait}
    (h : Settles ports s a current now own s' (.awaits call)) : call.Sound ∧
      call.attempt = a := by
  rcases h.awaits with ⟨rule, -, hret, rfl⟩ | ⟨-, rfl⟩
  · exact ⟨hret, rfl⟩
  · exact ⟨trivial, rfl⟩

theorem beginRoute_call {call : RouteAwait}
    (h : beginRoute ports s id = (s', .awaits call)) : call.Sound ∧ call.attempt.id = id := by
  cases beginRoute_begins h with
  | listing => exact ⟨trivial, rfl⟩

theorem resumeRoute_call {call call' : RouteAwait} {reply : RouteReply}
    (h : resumeRoute ports s now call reply = some (s', .awaits call')) :
    call'.Sound ∧ call'.attempt = call.attempt := by
  cases resumeRoute_resumes h with
  | found => exact ⟨trivial, rfl⟩
  | unlisted _ _ _ _ _ _ _ hsettles => exact hsettles.sound
  | reread _ _ _ _ _ _ _ hsettles => exact hsettles.sound
  | saved _ _ _ _ _ _ hconfirms => nomatch hconfirms

/-- What a step leaves of the attempt it works on. -/
theorem RoutePass.Sound.attempt {p : RoutePass} {reply : RouteReply} {row : DueRoute}
    {rest : List DueRoute} {out : RouteOutcome} (h : p.Sound s)
    (hattempt : p.attempt ports s reply = some (row, rest, s', out)) :
    (∀ r ∈ row :: rest, Routed s r.mailbox_id) ∧
      ∀ call, out = .awaits call → call.Sound ∧ call.attempt.id = row.mailbox_id := by
  unfold RoutePass.Sound at h
  rcases RoutePass.attempt_cases hattempt with ⟨hpoint, hbegin⟩ | ⟨call, hpoint, hresume⟩
  · rw [hpoint] at h
    refine ⟨h, ?_⟩
    intro call hcall
    subst hcall
    exact beginRoute_call hbegin
  · rw [hpoint] at h
    obtain ⟨-, hid, hrows⟩ := h
    refine ⟨hrows, ?_⟩
    intro call' hcall
    subst hcall
    obtain ⟨hsound, hsame⟩ := resumeRoute_call hresume
    exact ⟨hsound, by rw [hsame, hid]⟩

theorem RoutePass.step_sound {p q : RoutePass} {reply : RouteReply} (hp : p.Sound s)
    (h : p.step ports s reply = some (s', some q)) : q.Sound s' := by
  have hkeep : ∀ id, Routed s id → Routed s' id := fun _ => (RoutePass.step_writes h).routed
  rcases RoutePass.step_cases h with ⟨-, rfl, hq⟩ | ⟨-, -, hq⟩ |
    ⟨row, rest, s₁, out, hattempt, -, hq⟩
  · obtain rfl := Option.some.inj hq
    -- the rows of the pass are routes of the store
    intro row hrow
    obtain ⟨r, hr, rfl⟩ := List.mem_map.mp hrow
    have hsorted := List.mem_of_mem_take hr
    rw [List.mem_insertionSort] at hsorted
    exact ⟨r, (Table.mem_select.mp hsorted).1, rfl⟩
  · exact absurd hq (by simp)
  · obtain rfl := Option.some.inj hq
    obtain ⟨hrows, hcall⟩ := hp.attempt hattempt
    have hrest : ∀ r ∈ rest, Routed s' r.mailbox_id := fun r hr =>
      hkeep _ (hrows r (List.mem_cons_of_mem _ hr))
    cases out with
    | awaits call =>
      obtain ⟨hsound, hid⟩ := hcall call rfl
      exact ⟨hsound, hid, fun r hr => hkeep _ (hrows r hr)⟩
    | returns seen => exact hrest
    | fails error seen => exact hrest

/-- The assertions of the passes hold in every reachable pool. -/
theorem reconciling_valid (ports : RecipientRoutingPorts) :
    (reconciling ports).Valid (fun _ => True) RoutePass.Sound fun _ _ => True where
  init _ _ := trivial
  symm _ _ _ := trivial
  env s c s' _ he := by
    obtain rfl := Option.some.inj he
    exact ⟨trivial, fun p hp => hp.mono fun _ hr => hr.exec c⟩
  start _ _ _ := ⟨trivial, fun _ _ => trivial⟩
  step s p i s' p' _ hp hs :=
    ⟨trivial, fun q hq => by subst hq; exact RoutePass.step_sound hp hs⟩
  other s p i s' p' q _ _ hq _ hs :=
    ⟨hq.mono fun _ => (RoutePass.step_writes hs).routed, fun _ _ => trivial⟩

/-! ### Every step -/

/-- What the pass makes of such an end leaves the route due. -/
theorem EndsDue.due {row : DueRoute} {rest : List DueRoute} {p : RoutePass} {out : RouteOutcome}
    (h : EndsDue s' row.mailbox_id out) (hroute : Routed s' row.mailbox_id)
    (hret : retiredNow s' row.mailbox_id = true) :
    Due (p.proceed row rest (s', out)).1 row.mailbox_id := by
  cases h with
  | failed error seen hretry =>
    apply hroute.due_write
    intro r
    simp [RouteWrite.assign, hretry]
  | confirmed s₁ ruleId now seen heq =>
    subst heq
    apply hroute.of_write.due_write
    intro r
    have hret' : retiredNow s₁ row.mailbox_id = true := hret
    simp [RouteWrite.assign, hret']

/-- A retirement is as visible after the writes of an attempt as before. -/
theorem RouteWrites.retiredNow_eq (h : RouteWrites s s') (id : String) :
    retiredNow s' id = retiredNow s id := by
  induction h with
  | refl => rfl
  | tail _ hwrite ih =>
    obtain ⟨id', write, rfl⟩ := hwrite
    exact (retiredNow_write _ id id' write).trans ih

/-- An attempt that is unaware of a retirement was suspended in between. -/
theorem RoutePass.attempt_unaware {p : RoutePass} {reply : RouteReply} {row : DueRoute}
    {rest : List DueRoute} {out : RouteOutcome} (hp : p.Sound s)
    (hattempt : p.attempt ports s reply = some (row, rest, s', out)) (hend : out.EndsUnaware)
    (hret : retiredNow s row.mailbox_id = true) :
    ∃ call, p.point = .attempting row rest call ∧ call.lastRead.retiredAt = none ∧
      (call.refusedBy ports reply = false → EndsDue s' row.mailbox_id out) ∧
      RouteWrites s s' := by
  unfold RoutePass.Sound at hp
  rcases RoutePass.attempt_cases hattempt with ⟨-, hbegin⟩ | ⟨call, hpoint, hresume⟩
  · -- the attempt reads and ends in one step, so it sees the retirement
    cases beginRoute_begins hbegin with
    | gone =>
      obtain ⟨m, hm, -⟩ := hend
      exact absurd hm (by simp)
    | unconfigured mailbox e hread =>
      obtain ⟨m, hm, hnone⟩ := hend
      obtain rfl := Option.some.inj hm
      rw [getAddress_retired hread, hnone] at hret
      exact absurd hret (by simp)
    | listing => exact absurd hend id
  · rw [hpoint] at hp
    obtain ⟨hsound, hid, -⟩ := hp
    obtain ⟨hnone, hdue⟩ := resumeRoute_unaware hsound hresume hend
    exact ⟨call, hpoint, hnone, fun href => hid ▸ hdue href, resumeRoute_writes hresume⟩

/-- What the pool does in a step that works on an attempt. -/
theorem reconciling_attempt {w w' : Lts.Pool Store RoutePass} {pid : Nat} {reply : RouteReply}
    {p : RoutePass} {row : DueRoute} {rest : List DueRoute} {out : RouteOutcome}
    (h : (reconciling ports).machine.step w (.step pid reply) = some w')
    (hp : w.procs pid = some p)
    (hattempt : p.attempt ports w.shared reply = some (row, rest, s', out)) :
    w'.shared = (p.proceed row rest (s', out)).1 := by
  obtain ⟨q, hq, hstep⟩ := Option.bind_eq_some_iff.mp h
  obtain rfl : q = p := Option.some.inj (hq.symm.trans hp)
  obtain ⟨⟨s₁, next⟩, hs, rfl⟩ := Option.map_eq_some_iff.mp hstep
  rcases RoutePass.step_cases hs with ⟨hpoint, -⟩ | ⟨hpoint, -⟩ |
    ⟨row', rest', s₂, out', hattempt', heq, -⟩
  · simp [RoutePass.attempt, hpoint] at hattempt
  · simp [RoutePass.attempt, hpoint] at hattempt
  · obtain ⟨rfl, rfl, rfl, rfl⟩ : row' = row ∧ rest' = rest ∧ s₂ = s' ∧
        out' = out := by
      simpa using hattempt'.symm.trans hattempt
    exact heq

/-- **Step.** A step keeps the retirement exactly when it does not refuse an
    attempt that is unaware of it. -/
theorem retirementKept_iff {w w' : Lts.Pool Store RoutePass} {l : RouteLabel}
    (hsound : ∀ pid p, w.procs pid = some p → p.Sound w.shared)
    (hstep : (reconciling ports).machine.step w l = some w') :
    RetirementKept ports w l w' ↔ Unrefused ports w l := by
  constructor
  · intro hkept pid reply p row rest call hl hp hpoint hnone hret
    subst hl
    by_contra href
    have hrefused : call.refusedBy ports reply = true := by simpa using href
    -- the step that `hl` names is the one the machine takes
    obtain ⟨s₁, next, hs⟩ : ∃ s₁ next, p.step ports w.shared reply =
        some (s₁, next) := by
      obtain ⟨q, hq, hmap⟩ := Option.bind_eq_some_iff.mp hstep
      obtain rfl : q = p := Option.some.inj (hq.symm.trans hp)
      obtain ⟨⟨s₁, next⟩, hs, -⟩ := Option.map_eq_some_iff.mp hmap
      exact ⟨s₁, next, hs⟩
    have hmap : p.step ports w.shared reply = (p.attempt ports w.shared reply).map
        fun r => ((p.proceed r.1 r.2.1 r.2.2).1, some (p.proceed r.1 r.2.1 r.2.2).2) := by
      simp [RoutePass.step, hpoint]
    obtain ⟨⟨row', rest', s₂, out⟩, hattempt, -⟩ :=
      Option.map_eq_some_iff.mp (hmap.symm.trans hs)
    have hwork := hattempt
    simp only [RoutePass.attempt, hpoint] at hattempt
    obtain ⟨⟨s₃, out'⟩, hresume, heq⟩ := Option.map_eq_some_iff.mp hattempt
    obtain ⟨rfl, rfl, rfl, rfl⟩ : row = row' ∧ rest = rest' ∧ s₃ = s₂ ∧
        out' = out := by
      simpa using heq
    obtain ⟨e, hfinal, rfl⟩ := resumeRoute_refused hresume hrefused
    -- its failure is final, so the retry it writes is `none`: not due
    have hdue := hkept pid reply p row rest s₃ _ rfl hp hwork ⟨_, rfl, hnone⟩ hret
    rw [reconciling_attempt hstep hp hwork] at hdue
    refine not_due_write (fun r => ?_) hdue
    simp [RouteWrite.assign, hfinal]
  · intro hunrefused pid reply p row rest s₁ out hl hp hwork hend hret
    subst hl
    obtain ⟨call, hpoint, hnone, hdue, hwrites⟩ :=
      RoutePass.attempt_unaware (hsound pid p hp) hwork hend hret
    have hroute := ((hsound pid p hp).attempt hwork).1 row List.mem_cons_self
    rw [reconciling_attempt hstep hp hwork]
    refine (hdue (hunrefused pid reply p row rest call rfl hp hpoint hnone hret)).due
      (hwrites.routed hroute) ?_
    rw [hwrites.retiredNow_eq]
    exact hret

/-- **Every run.** The retirements of a run are kept, whatever the interleaving
    and whatever the client answers, exactly when none of its steps refuses an
    attempt that is unaware of a retirement. -/
theorem retirement_survives_reconcile (ports : RecipientRoutingPorts)
    {w w' : Lts.Pool Store RoutePass} {ls : List RouteLabel}
    (hr : (reconciling ports).machine.Reachable w) :
    (reconciling ports).machine.RunBy (RetirementKept ports) w ls w' ↔
      (reconciling ports).machine.RunBy (fun w l _ => Unrefused ports w l) w ls w' := by
  have hiff : ∀ w l w', (reconciling ports).machine.Reachable w →
      (reconciling ports).machine.step w l = some w' →
      (RetirementKept ports w l w' ↔ Unrefused ports w l) := fun w l w' hw hstep =>
    retirementKept_iff ((reconciling_valid ports).reachable hw).loc hstep
  constructor
  · exact Lts.Machine.RunBy.mono (fun _ l _ hw hstep => hw.step l hstep)
      (fun w l w' hw hstep => (hiff w l w' hw hstep).mp) hr
  · exact Lts.Machine.RunBy.mono (fun _ l _ hw hstep => hw.step l hstep)
      (fun w l w' hw hstep => (hiff w l w' hw hstep).mpr) hr

end reconcile

/-! ### The lost retirement

  The sample mailbox is retired while its first attempt waits for the rule
  list, and the client then refuses the list for good. -/

namespace Sample

def routingPorts : RecipientRoutingPorts where
  domains := [{ name := "example.com", receive := true, send := true, zoneId := "zone-1" }]
  workerName := "worker"
  ownerPrefix := "umail/"
  legacySeeds := []

/-- The empty store, without a pass. -/
def unrouted : Lts.Pool Store RoutePass where
  shared := Store.empty
  procs _ := none

theorem unrouted_reachable : (reconciling routingPorts).machine.Reachable unrouted :=
  .init ⟨rfl, fun _ => rfl⟩

/-- A pass up to the first call of the client, and a retirement of its mailbox. -/
def retireLabels : List RouteLabel :=
  [.env (.createAddress "mailbox-1" "agent" "example.com" none 10 true), .start 0 20,
    .step 0 .unit, .step 0 .unit, .env (.retireAddress "mailbox-1" 30)]

/-- The client refuses the rule list. -/
def refused : RouteReply := .list (.error { message := "Forbidden", retryable := false })

end Sample

open Sample in
theorem retirement_survives_reconcile_retired :
    ∃ w', (reconciling routingPorts).machine.Run unrouted retireLabels w' ∧
      ((reconciling routingPorts).machine.RunBy (RetirementKept routingPorts) unrouted
          retireLabels w' ↔
        (reconciling routingPorts).machine.RunBy (fun w l _ => Unrefused routingPorts w l) unrouted
          retireLabels w') := by
  have hfire : ((reconciling routingPorts).machine.fire unrouted retireLabels).isSome = true := by
    decide +kernel
  obtain ⟨w', hw'⟩ := Option.isSome_iff_exists.mp hfire
  exact ⟨w', .of_fire hw', retirement_survives_reconcile routingPorts unrouted_reachable⟩

open Sample in
/-- A step that loses the retirement. -/
theorem refusal_loses_retirement :
    ∃ w l w', (reconciling routingPorts).machine.Reachable w ∧
      (reconciling routingPorts).machine.step w l = some w' ∧
      ¬ RetirementKept routingPorts w l w' := by
  have hfire : (((reconciling routingPorts).machine.fire unrouted retireLabels).any fun w =>
      (w.procs 0).any fun p => (p.attempt routingPorts w.shared refused).any fun (row, _, _, out) =>
        decide out.EndsUnaware && retiredNow w.shared row.mailbox_id &&
        ((reconciling routingPorts).machine.step w (.step 0 refused)).any fun w' =>
          w'.shared.routes.rows.all fun r => r.retry_after.isNone) = true := by
    decide +kernel
  obtain ⟨w, hw, hp⟩ := (Option.any_eq_true _ _).mp hfire
  obtain ⟨p, hproc, hattempt⟩ := (Option.any_eq_true _ _).mp hp
  obtain ⟨⟨row, rest, s, out⟩, hwork, hend⟩ := (Option.any_eq_true _ _).mp hattempt
  simp only [Bool.and_eq_true, decide_eq_true_eq] at hend
  obtain ⟨⟨hends, hret⟩, hlast⟩ := hend
  obtain ⟨w', hstep, hnone⟩ := (Option.any_eq_true _ _).mp hlast
  refine ⟨w, .step 0 refused, w', ?_, hstep, fun hkept => ?_⟩
  · exact (Lts.Machine.Run.of_fire hw).reachable unrouted_reachable
  · -- the refusal was recorded without a look at the mailbox
    obtain ⟨r, hr, -, hdue⟩ := hkept 0 refused p row rest s out rfl hproc hwork hends hret
    -- but no retry is scheduled after it
    have hclear := List.all_eq_true.mp hnone r hr
    rw [Option.isNone_iff_eq_none] at hclear
    rw [hclear] at hdue
    exact absurd hdue (by simp)

end Umail
