import Umail.Account.Identifiers
import Umail.Account.Retirement
import Umail.Account.Wakeup
import Umail.Contract.MailDomain

/-! # The addresses of stored mailboxes

  The worker creates mailboxes in the domains of its site only. So every
  stored address is one that was constructed in a configured domain: each of
  its spellings leads an inbound delivery to its mailbox, and it passes the
  sender check of a submit.
-/

namespace Umail

open Relational

section addresses
variable [Unicode] {s s' : Store}

/-! ### Served stores -/

/-- Every mailbox was created in a domain that was configured then. -/
abbrev Store.Served (s : Store) : Prop :=
  s.ReachedBy fun c => ∀ name ∈ c.mailDomain, IsConfigured name

theorem Store.Served.quiet (h : s.Served) {c : Command} (hc : c.mailDomain = none) :
    (s.exec c).Served := by
  refine .exec c h fun name hname => ?_
  rw [hc] at hname
  cases hname

theorem Store.Served.writes (h : s.Served) (hw : RouteWrites s s') : s'.Served := by
  induction hw with
  | refl => exact h
  | tail _ hwrite ih =>
    obtain ⟨id, write, rfl⟩ := hwrite
    exact ih.quiet (c := .writeRoute id write) rfl

/-! ### The stores of the worker -/

variable {ports : DueWorkPorts} {w w' : AccountState}

theorem DueWorkPass.Moves.served {p : DueWorkPass} {reply : DueWorkReply}
    {next : Option DueWorkPass} (h : p.Moves ports w reply w' next)
    (hs : w.mail.store.Served) : w'.mail.store.Served := by
  cases h with
  | expires => exact hs.quiet (c := .expireDueApprovals p.nowMs) rfl
  | settles => exact hs.quiet (c := .settleAbandonedClaims p.nowMs) rfl
  | redrives => exact hs.quiet (c := .redriveDueInboundReceipts p.nowMs REDRIVE_BATCH_SIZE) rfl
  | dispatched dispatch rest reply mail next hpoint hthrows hstep =>
    rcases (Dispatch.moves_of_step hstep).store_eq with heq | ⟨c, hc, heq⟩
    · exact heq ▸ hs
    · exact heq ▸ hs.quiet hc
  | reconciles pass reply store next hpoint hstep => exact hs.writes (RoutePass.step_writes hstep)
  | selects | sent | dispatches | published | publishes | fails | arms => exact hs

/-- A step of an activity leaves a served store. -/
theorem Activity.step_served {a : Activity} {reply : WorkerReply} {next : Option Activity}
    (hdomains : ∀ domain ∈ ports.domains, domain.receive = true → IsConfigured domain.name)
    (h : a.step ports w reply = some (w', next)) (hs : w.mail.store.Served) :
    w'.mail.store.Served := by
  unfold Activity.step at h
  split at h
  · split at h
    · obtain ⟨rfl, -⟩ := Lts.some_pair_inj h
      exact hs
    · next store arms hrun =>
      obtain ⟨rfl, -⟩ := Lts.some_pair_inj h
      rcases AccountStoreRpc.run_ok hrun with ⟨rfl, -⟩ | ⟨c, rfl, -, hnames⟩
      · exact hs
      · refine .exec c hs fun name hname => ?_
        obtain ⟨domain, hdomain, rfl, hreceive⟩ := hnames name hname
        exact hdomains domain hdomain hreceive
  · obtain ⟨rfl, -⟩ := Lts.some_pair_inj h
    exact hs
  · obtain ⟨⟨w₁, next₁⟩, hstep, heq⟩ := Option.map_eq_some_iff.mp h
    obtain ⟨rfl, -⟩ := Prod.mk.inj heq
    exact (DueWorkPass.moves_of_step hstep).served hs
  · next names nowMs =>
    obtain ⟨rfl, -⟩ := Lts.some_pair_inj h
    exact hs.quiet (c := .configureSendingDomains names) rfl
  · obtain ⟨rfl, -⟩ := Lts.some_pair_inj h
    exact hs
  · cases h

/-- Every store of a worker whose receiving domains are configured is served. -/
theorem accountWorker_served {w : Lts.Pool AccountState Activity}
    (hdomains : ∀ domain ∈ ports.domains, domain.receive = true → IsConfigured domain.name)
    (h : (accountWorker ports).Reachable w) : w.shared.mail.store.Served := by
  refine Lts.Machine.Reachable.invariant
    (P := fun w : Lts.Pool AccountState Activity => w.shared.mail.store.Served) ?_ ?_ h
  · intro w ⟨hinit, _⟩
    rw [hinit]
    exact .empty
  · intro w l w' _ hs hstep
    cases l with
    | call pid rpc | fire pid nowMs =>
      simp only [accountWorker] at hstep
      split at hstep
      · cases hstep
      · obtain rfl := Option.some.inj hstep
        exact hs
    | restart pid sendNames nowMs =>
      obtain rfl := Option.some.inj hstep
      exact hs
    | step pid reply =>
      obtain ⟨a, -, hmap⟩ := Option.bind_eq_some_iff.mp hstep
      obtain ⟨⟨shared, next⟩, hactivity, rfl⟩ := Option.map_eq_some_iff.mp hmap
      exact Activity.step_served hdomains hactivity hs

/-! ### Constructed and routed -/

/-- The address was constructed in a configured domain. -/
def MailboxAddress.Configured (address : MailboxAddress) : Prop :=
  ∃ localPart mailDomain parsed, IsConfigured mailDomain ∧
    constructMailboxAddress localPart mailDomain = .ok parsed ∧ parsed.address = address

/-- Mailboxes have configured addresses, and a route each. -/
structure Store.Addressed (s : Store) : Prop where
  configured : ∀ a ∈ s.addresses, a.address.Configured
  routed : ∀ a ∈ s.addresses, Routed s a.id

/-- Only creating a mailbox brings an address; the others keep theirs. -/
theorem exec_addresses_kept {c : Command} (hc : c.mailDomain = none) {a' : AddressRow}
    (ha' : a' ∈ (s.exec c).addresses) :
    ∃ a ∈ s.addresses, a'.id = a.id ∧ a'.address = a.address := by
  by_cases hwrite : ∀ id write, c ≠ .writeRoute id write
  · rcases (exec_mailboxes s c).mem_cases ha' with ⟨a, ha, hid⟩ | ⟨_, _, _, _, _, rfl⟩
    · obtain ⟨b, hb, hlater⟩ := (exec_administers s hwrite).addresses.exists_mem ha
      -- the mailbox of that id afterwards is the one at hand
      have heq : b = a' := Table.eq_of_clash _ hb ha' (.inl (hlater.id.trans hid.symm))
      exact ⟨a, ha, hid, heq ▸ hlater.address⟩
    · cases hc
  · push Not at hwrite
    obtain ⟨id, write, rfl⟩ := hwrite
    exact ⟨a', ha', rfl, rfl⟩

theorem Store.Addressed.exec (h : s.Addressed) {c : Command}
    (hnames : ∀ name ∈ c.mailDomain, IsConfigured name) : (s.exec c).Addressed := by
  cases hc : c.mailDomain with
  | none =>
    constructor
    · intro a' ha'
      obtain ⟨a, ha, -, haddress⟩ := exec_addresses_kept hc ha'
      rw [haddress]
      exact h.configured a ha
    · intro a' ha'
      obtain ⟨a, ha, hid, -⟩ := exec_addresses_kept hc ha'
      rw [hid]
      exact (h.routed a ha).exec c
  | some name =>
    cases c with
    | createAddress id localPart mailDomain displayName nowIso sendingAllowed =>
      refine committedSnd_of h fun r s' hok => ?_
      rcases createAddress_cases hok with rfl | ⟨parsed, _, _, hparsed, hins, hroute, rfl⟩
      · exact h
      · have hconfigured : IsConfigured mailDomain := hnames mailDomain rfl
        constructor
        · intro a ha
          rcases (Table.mem_insert? hins).mp ha with hold | rfl
          · exact h.configured a hold
          · exact ⟨localPart, mailDomain, parsed, hconfigured, hparsed, rfl⟩
        · intro a ha
          rcases (Table.mem_insert? hins).mp ha with hold | rfl
          · obtain ⟨r, hr, hid⟩ := h.routed a hold
            exact ⟨r, (Table.mem_insert? hroute).mpr (.inl hr), hid⟩
          · exact ⟨_, (Table.mem_insert? hroute).mpr (.inr rfl), rfl⟩
    | _ => cases hc

theorem Store.Served.addressed (h : s.Served) : s.Addressed := by
  induction h with
  | empty => constructor <;> exact fun _ h => absurd h Table.mem_empty
  | exec c _ hnames ih => exact ih.exec hnames

/-! ### Deliveries and submits -/

/-- A delivery to the address of a mailbox with a route finds it. -/
theorem getAddressByMailbox_of_mem {a : AddressRow} (ha : a ∈ s.addresses)
    (hroute : Routed s a.id) :
    ∃ mailbox, getAddressByMailbox s a.address.val = some mailbox ∧ mailbox.id = a.id := by
  obtain ⟨r, hr, hid⟩ := hroute
  have hsome : (getAddressByMailbox s a.address.val).isSome = true := by
    unfold getAddressByMailbox mailboxWhere
    rw [List.findSome?_isSome_iff]
    refine ⟨a, ha, ?_⟩
    have hfound : (s.routes.find? (·.mailbox_id = a.id)).isSome = true :=
      Table.find?_isSome hr (decide_eq_true hid)
    simp [hfound]
  obtain ⟨mailbox, hmailbox⟩ := Option.isSome_iff_exists.mp hsome
  refine ⟨mailbox, hmailbox, ?_⟩
  unfold getAddressByMailbox mailboxWhere at hmailbox
  obtain ⟨b, hb, heq⟩ := List.exists_of_findSome?_eq_some hmailbox
  split at heq
  · next haddress =>
    -- addresses are unique
    have hsame : b.address = a.address := Subtype.ext (of_decide_eq_true haddress)
    have hab : b = a := Table.eq_of_clash _ hb ha (.inr hsame)
    obtain ⟨route, -, rfl⟩ := Option.map_eq_some_iff.mp heq
    rw [← hab]
    rfl
  · cases heq

/-- What holds of the mailboxes of a store. -/
structure Store.Reached (s : Store) : Prop where
  /-- A delivery to any spelling of an address finds its mailbox. -/
  delivers : ∀ a ∈ s.addresses, ∀ raw, SpellingOf raw a.address.val →
    ∃ parsed mailbox, parseMailboxAddress raw = some parsed ∧
      getAddressByMailbox s parsed.address.val = some mailbox ∧ mailbox.id = a.id
  /-- A submit for a mailbox that may send does not fail for its sender. -/
  sends : ∀ input identity, resolveSendingIdentity s input.mailboxId = some identity →
    ∃ «from», submitSender s input = some (identity, «from») ∧
      «from».val = identity.address.val

variable [LawfulUnicode]

theorem Store.Addressed.reached (h : s.Addressed) : s.Reached where
  delivers := by
    intro a ha raw hraw
    obtain ⟨localPart, mailDomain, parsed, hdomain, hparsed, haddress⟩ := h.configured a ha
    rw [← haddress] at hraw
    obtain ⟨again, hagain, hsame⟩ :=
      (CanonicalMailbox.of_construct hdomain hparsed).spellings raw hraw
    obtain ⟨mailbox, hmailbox, hid⟩ := getAddressByMailbox_of_mem ha (h.routed a ha)
    refine ⟨again, mailbox, hagain, ?_, hid⟩
    rwa [hsame, haddress]
  sends := by
    intro input identity hidentity
    obtain ⟨a, ha, rfl⟩ := Option.map_eq_some_iff.mp hidentity
    obtain ⟨localPart, mailDomain, parsed, hdomain, hparsed, haddress⟩ :=
      h.configured a (Table.find?_mem ha)
    obtain ⟨external, hexternal, hval⟩ :=
      (CanonicalMailbox.of_construct hdomain hparsed).external
    rw [haddress] at hexternal hval
    refine ⟨external.address, ?_, hval⟩
    unfold submitSender
    rw [hidentity]
    exact congrArg (Option.map _) hexternal

/-- **Mailbox addresses.** An address that is constructed in a configured
    domain has one canonical form, which all the parsers read alike; in every
    store that is served, deliveries to any spelling of an address find its
    mailbox, and no mailbox that may send is refused for its address. The
    stores of a worker with configured domains are such stores. -/
theorem mailboxAddress_canonical :
    (∀ localPart mailDomain parsed, IsConfigured mailDomain →
      constructMailboxAddress localPart mailDomain = .ok parsed →
        CanonicalMailbox localPart mailDomain parsed) ∧
      (∀ s : Store, s.Served → s.Reached) ∧
      ∀ (ports : DueWorkPorts) (w : Lts.Pool AccountState Activity),
        (∀ domain ∈ ports.domains, domain.receive = true → IsConfigured domain.name) →
          (accountWorker ports).Reachable w → w.shared.mail.store.Reached := by
  refine ⟨fun _ _ _ => CanonicalMailbox.of_construct, fun _ h => h.addressed.reached, ?_⟩
  intro ports w hdomains hreach
  have hserved : w.shared.mail.store.Served := accountWorker_served hdomains hreach
  exact hserved.addressed.reached

end addresses

/-! ### At the mapping of ASCII -/

open Sample.External in
theorem isConfigured_example : IsConfigured "example.com" := by
  have hdecode : (decodeConfiguredMailDomain "example.com").map (·.val) = some "example.com" := by
    decide +kernel
  obtain ⟨domain, hdomain, hval⟩ := Option.map_eq_some_iff.mp hdecode
  exact hval ▸ .prod hdomain

open Sample Sample.External in
/-- The worker that was asked for a mailbox. -/
theorem agentWorker_reachable : ∃ w : Lts.Pool AccountState Activity,
    (accountWorker workerPorts).Reachable w ∧
      (getAddressByMailbox w.shared.mail.store "agent@example.com").map (·.id) =
        some "mailbox-1" := by
  have hrun : ((AccountStoreRpc.createAddress "mailbox-1" " Agent" "example.com" none 10).run
      workerPorts.domains Store.empty).toOption.any (fun (s, arms) =>
        arms && (getAddressByMailbox s "agent@example.com").map (·.id) = some "mailbox-1") =
          true := by decide +kernel
  obtain ⟨⟨s, arms⟩, hok, hfound⟩ := (Option.any_eq_true _ _).mp hrun
  rw [Bool.and_eq_true, decide_eq_true_iff] at hfound
  obtain ⟨rfl, hfound⟩ := hfound
  have hasleep : (accountWorker workerPorts).Reachable asleep := .init ⟨rfl, fun _ => rfl⟩
  have hcreated : (AccountStoreRpc.createAddress "mailbox-1" " Agent" "example.com" none 10).run
      workerPorts.domains asleep.shared.mail.store = .ok (s, true) := ok_of_toOption hok
  obtain ⟨w, hreach, -, hshared⟩ := idle_call hasleep (fun _ => rfl) hcreated 20
  exact ⟨w, hreach, hshared ▸ hfound⟩

open Sample Sample.External in
theorem mailboxAddress_canonical_agent :
    (∃ parsed, constructMailboxAddress " Agent" "example.com" = .ok parsed ∧
      CanonicalMailbox " Agent" "example.com" parsed) ∧
    (∃ s : Store, s.Reached ∧
      (getAddressByMailbox s "agent@example.com").map (·.id) = some "mailbox-1") ∧
    ∃ w : Lts.Pool AccountState Activity, (accountWorker workerPorts).Reachable w ∧
      w.shared.mail.store.Reached ∧
        (getAddressByMailbox w.shared.mail.store "agent@example.com").map (·.id) =
          some "mailbox-1" := by
  obtain ⟨parsed, hparsed⟩ : ∃ parsed, constructMailboxAddress " Agent" "example.com" =
      .ok parsed := ⟨_, rfl⟩
  have hserved : (Store.empty.exec
      (.createAddress "mailbox-1" " Agent" "example.com" none 10 true)).Served :=
    .exec _ .empty (by rintro name ⟨⟩; exact isConfigured_example)
  obtain ⟨w, hreach, hfound⟩ := agentWorker_reachable
  have hdomains : ∀ domain ∈ workerPorts.domains, domain.receive = true →
      IsConfigured domain.name := by
    intro domain hdomain _
    rw [List.mem_singleton.mp hdomain]
    exact isConfigured_example
  refine ⟨⟨parsed, hparsed, ?_⟩, ⟨_, mailboxAddress_canonical.2.1 _ hserved, by decide +kernel⟩,
    w, hreach, mailboxAddress_canonical.2.2 workerPorts w hdomains hreach, hfound⟩
  exact mailboxAddress_canonical.1 _ _ parsed isConfigured_example hparsed

end Umail
