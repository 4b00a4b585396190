import Umail.Account.Identifiers
import Umail.Auth.Access

/-! # The clients page

  `apps/server/src/web/pages/clients.ts`: the form that edits the policy of a
  client, from the stored policy over the controls of the page and the entries
  that a browser submits to the policy that is saved.

  A form that is submitted as it was rendered leaves the client the authority
  it had. The ids of mailboxes are minted as UUIDs, so none of them is the
  word that stands for all mailboxes.
-/

namespace Umail

open Json

section clients
variable [Unicode]

/-! ### The state of the form -/

/-- `"all" | "some"` for mailboxes, `"any" | "some"` for recipients. -/
inductive FieldScope where
  | every
  | some
deriving DecidableEq

/-- The text of a scope, by the word for all there is. -/
def FieldScope.value (word : String) : FieldScope → String
  | .every => word
  | .some => "some"

structure PolicyFormState where
  mailboxScope : FieldScope
  mailboxIds : List String
  canRead : Bool
  sendMode : SendModeKind
  preapproved : String
  recipientScope : FieldScope
  recipients : String

def PrincipalSendMode.kind : PrincipalSendMode → SendModeKind
  | .deny => .deny
  | .allow => .allow
  | .requireApproval _ => .requireApproval

def joinAddresses (addresses : List ExternalMailAddress) : String :=
  ", ".intercalate (addresses.map (·.val))

/-- A consent without a policy starts from the defaults. -/
def policyFormState : Option PrincipalPolicy → PolicyFormState
  | none =>
    { mailboxScope := .every, mailboxIds := [], canRead := true, sendMode := .requireApproval
      preapproved := "", recipientScope := .every, recipients := "" }
  | some policy =>
    { mailboxScope := match policy.mailboxIds with
        | .all => .every
        | .only _ _ => .some
      mailboxIds := policy.mailboxIds.ids
      canRead := policy.canRead
      sendMode := policy.sendMode.kind
      preapproved := joinAddresses policy.sendMode.preapproved
      recipientScope := match policy.recipientAllowlist with
        | .any => .every
        | .only _ _ => .some
      recipients := joinAddresses policy.recipientAllowlist.addresses }

/-! ### The page -/

/-- A control of the form. -/
inductive Control where
  | radio (name value : String) (checked : Bool)
  | checkbox (name : String) (value : Option String) (checked : Bool)
  | text (name value : String)

/-- The entry that a control submits; a checkbox without a value submits `on`. -/
def Control.entry : Control → Option (String × String)
  | .radio name value checked => if checked then some (name, value) else none
  | .checkbox name value checked => if checked then some (name, value.getD "on") else none
  | .text name value => some (name, value)

def choice (name value current : String) : Control := .radio name value (value = current)

def mailboxesFieldset (state : PolicyFormState) (addresses : List AccountAddress) :
    List Control :=
  [choice "mailboxScope" "all" (state.mailboxScope.value "all"),
    choice "mailboxScope" "some" (state.mailboxScope.value "all")] ++
  addresses.map fun address =>
    .checkbox "mailbox" (some address.id) (state.mailboxIds.contains address.id)

def sendingFieldset (state : PolicyFormState) : List Control :=
  [choice "sendMode" "deny" state.sendMode.value,
    choice "sendMode" "requireApproval" state.sendMode.value,
    choice "sendMode" "allow" state.sendMode.value,
    .text "preapproved" state.preapproved]

def recipientsFieldset (state : PolicyFormState) : List Control :=
  [choice "recipientScope" "any" (state.recipientScope.value "any"),
    choice "recipientScope" "some" (state.recipientScope.value "any"),
    .text "recipients" state.recipients]

/-- The form of `clientPage`. -/
def clientPage (state : PolicyFormState) (addresses : List AccountAddress) : List Control :=
  mailboxesFieldset state addresses ++ sendingFieldset state ++
    [.checkbox "canRead" none state.canRead] ++ recipientsFieldset state

/-- The entries of the form when it is submitted as it was rendered. -/
def submission (state : PolicyFormState) (addresses : List AccountAddress) :
    List (String × String) := (clientPage state addresses).filterMap Control.entry

/-! ### Saving -/

/-- A field of a submitted form, which is an array when it is repeated. -/
inductive FormValue where
  | string (s : String)
  | array (items : List String)

def formValues (entries : List (String × String)) (name : String) : List String :=
  (entries.filter (·.1 = name)).map (·.2)

def formValue (entries : List (String × String)) (name : String) : Option FormValue :=
  match formValues entries name with
  | [] => none
  | [value] => some (.string value)
  | values => some (.array values)

/-- The `PolicyForm` of the page. -/
structure ClientForm where
  mailboxScope : Option String
  mailbox : Option FormValue
  canRead : Option String
  sendMode : Option String
  preapproved : Option String
  recipientScope : Option String
  recipients : Option String

/-- `Schema.optionalKey(Schema.String)` -/
def optionalField : Option FormValue → Option (Option String)
  | none => some none
  | some (.string s) => some (some s)
  | some (.array _) => none

def decodeClientForm (entries : List (String × String)) : Option ClientForm := do
  let mailboxScope ← optionalField (formValue entries "mailboxScope")
  let canRead ← optionalField (formValue entries "canRead")
  let sendMode ← optionalField (formValue entries "sendMode")
  let preapproved ← optionalField (formValue entries "preapproved")
  let recipientScope ← optionalField (formValue entries "recipientScope")
  let recipients ← optionalField (formValue entries "recipients")
  return { mailboxScope, mailbox := formValue entries "mailbox", canRead, sendMode, preapproved
           recipientScope, recipients }

def submittedState (form : ClientForm) : PolicyFormState where
  mailboxScope := if form.mailboxScope = some "some" then .some else .every
  mailboxIds := match form.mailbox with
    | none => []
    | some (.string id) => [id]
    | some (.array ids) => ids
  canRead := form.canRead.isSome
  sendMode :=
    if form.sendMode = some "deny" then .deny
    else if form.sendMode = some "allow" then .allow
    else .requireApproval
  preapproved := form.preapproved.getD ""
  recipientScope := if form.recipientScope = some "some" then .some else .every
  recipients := form.recipients.getD ""

/-- The fields that `saveClientRoute` hands to `policyFromForm`. -/
def policyInput (state : PolicyFormState) : Data :=
  .object
    [("mailboxes", .string (match state.mailboxScope with
      | .every => "all"
      | .some => ",".intercalate state.mailboxIds)),
    ("canRead", .bool state.canRead),
    ("sendMode", .string state.sendMode.value),
    ("preapproved", .string state.preapproved),
    ("recipients", .string (match state.recipientScope with
      | .every => "any"
      | .some => state.recipients))]

/-- `saveClientRoute`; `none` when the entries are no form. -/
def saveClient (entries : List (String × String)) : Option PolicyFormResult :=
  (decodeClientForm entries).map fun form => policyFromForm (policyInput (submittedState form))

/-! ### What a submission holds -/

/-- The ids of the boxes that are checked. -/
def checkedIds (state : PolicyFormState) (addresses : List AccountAddress) : List String :=
  (addresses.map (·.id)).filter fun id => state.mailboxIds.contains id

/-- The entries behind those of the mailboxes. -/
def laterEntries (state : PolicyFormState) : List (String × String) :=
  ("sendMode", state.sendMode.value) :: ("preapproved", state.preapproved) ::
    ((if state.canRead then [("canRead", "on")] else []) ++
      [("recipientScope", state.recipientScope.value "any"), ("recipients", state.recipients)])

theorem checkboxes_entries (ids : List String) (addresses : List AccountAddress) :
    (addresses.map fun address =>
      Control.checkbox "mailbox" (some address.id) (ids.contains address.id)).filterMap
        Control.entry =
      ((addresses.map (·.id)).filter fun id => ids.contains id).map (("mailbox", ·)) := by
  induction addresses with
  | nil => rfl
  | cons address addresses ih =>
    rw [List.map_cons, List.map_cons]
    by_cases hmem : ids.contains address.id = true
    · have hentry : Control.entry (.checkbox "mailbox" (some address.id)
          (ids.contains address.id)) = some ("mailbox", address.id) := if_pos hmem
      rw [List.filterMap_cons_some hentry, ih, List.filter_cons_of_pos hmem, List.map_cons]
    · have hentry : Control.entry (.checkbox "mailbox" (some address.id)
          (ids.contains address.id)) = none := if_neg hmem
      rw [List.filterMap_cons_none hentry, ih, List.filter_cons_of_neg hmem]

theorem submission_eq (state : PolicyFormState) (addresses : List AccountAddress) :
    submission state addresses = ("mailboxScope", state.mailboxScope.value "all") ::
      ((checkedIds state addresses).map (("mailbox", ·)) ++ laterEntries state) := by
  have hscope : [choice "mailboxScope" "all" (state.mailboxScope.value "all"),
      choice "mailboxScope" "some" (state.mailboxScope.value "all")].filterMap Control.entry =
        [("mailboxScope", state.mailboxScope.value "all")] := by
    cases state.mailboxScope <;> rfl
  have hsending : (sendingFieldset state).filterMap Control.entry =
      [("sendMode", state.sendMode.value), ("preapproved", state.preapproved)] := by
    unfold sendingFieldset
    cases state.sendMode <;> rfl
  have hread : [Control.checkbox "canRead" none state.canRead].filterMap Control.entry =
      if state.canRead then [("canRead", "on")] else [] := by
    cases state.canRead <;> rfl
  have hrecipients : (recipientsFieldset state).filterMap Control.entry =
      [("recipientScope", state.recipientScope.value "any"), ("recipients", state.recipients)] := by
    unfold recipientsFieldset
    cases state.recipientScope <;> rfl
  unfold submission clientPage mailboxesFieldset checkedIds laterEntries
  rw [List.filterMap_append, List.filterMap_append, List.filterMap_append, List.filterMap_append,
    hscope, checkboxes_entries, hsending, hread, hrecipients]
  simp

omit [Unicode] in
theorem formValues_append (a b : List (String × String)) (name : String) :
    formValues (a ++ b) name = formValues a name ++ formValues b name := by
  simp [formValues]

omit [Unicode] in
theorem formValues_map (ids : List String) (field name : String) :
    formValues (ids.map ((field, ·))) name = if field = name then ids else [] := by
  by_cases hname : field = name
  · have hkeep : (ids.map ((field, ·))).filter (fun entry => entry.1 = name) =
        ids.map ((field, ·)) := by
      apply List.filter_eq_self.mpr
      intro entry hentry
      obtain ⟨id, -, rfl⟩ := List.mem_map.mp hentry
      exact decide_eq_true hname
    rw [formValues, hkeep, if_pos hname, List.map_map]
    exact List.map_id ids
  · have hdrop : (ids.map ((field, ·))).filter (fun entry => entry.1 = name) = [] := by
      apply List.filter_eq_nil_iff.mpr
      intro entry hentry
      obtain ⟨id, -, rfl⟩ := List.mem_map.mp hentry
      simpa using hname
    rw [formValues, hdrop, if_neg hname]
    rfl

/-- The values of a field in a submission. -/
theorem formValues_submission (state : PolicyFormState) (addresses : List AccountAddress)
    (name : String) :
    formValues (submission state addresses) name =
      formValues [("mailboxScope", state.mailboxScope.value "all")] name ++
        ((if "mailbox" = name then checkedIds state addresses else []) ++
          formValues (laterEntries state) name) := by
  rw [submission_eq, ← List.singleton_append, formValues_append, formValues_append,
    formValues_map]

section submitted
variable {state : PolicyFormState} {addresses : List AccountAddress}
  {entries : List (String × String)}

omit [Unicode] in
theorem formValue_of_single {name value : String}
    (h : (formValues entries name).Perm [value]) :
    formValue entries name = some (.string value) := by
  unfold formValue
  rw [List.perm_singleton.mp h]

omit [Unicode] in
theorem formValue_of_none {name : String} (h : (formValues entries name).Perm []) :
    formValue entries name = none := by
  unfold formValue
  rw [List.perm_nil.mp h]

omit [Unicode] in
theorem formValues_perm {entries' : List (String × String)} (h : entries.Perm entries')
    (name : String) : (formValues entries name).Perm (formValues entries' name) :=
  (h.filter _).map _

omit [Unicode] in
/-- A repeated field is submitted as its values, however many there are. -/
theorem submittedIds (entries : List (String × String)) (name : String) :
    (match formValue entries name with
      | none => []
      | some (.string id) => [id]
      | some (.array ids) => ids) = formValues entries name := by
  unfold formValue
  cases formValues entries name with
  | nil => rfl
  | cons first rest =>
    cases rest with
    | nil => rfl
    | cons second rest => rfl

/-- The fields that are submitted once, whatever is checked. -/
def singleFields (state : PolicyFormState) : List (String × String) :=
  [("mailboxScope", state.mailboxScope.value "all"), ("sendMode", state.sendMode.value),
    ("preapproved", state.preapproved), ("recipientScope", state.recipientScope.value "any"),
    ("recipients", state.recipients)]

/-- A submission has the values of such a field besides those of the boxes. -/
theorem formValues_single (h : entries.Perm (submission state addresses)) {name : String}
    (hname : "canRead" ≠ name) :
    (formValues entries name).Perm (formValues (singleFields state) name ++
      if "mailbox" = name then checkedIds state addresses else []) := by
  have hlater : formValues (laterEntries state) name =
      formValues (singleFields state).tail name := by
    cases hread : state.canRead <;>
      simp [formValues, laterEntries, singleFields, hread, List.filter_cons, hname]
  have hperm := formValues_perm h name
  rw [formValues_submission, hlater] at hperm
  -- the scope of the mailboxes stands before the boxes, the others behind them
  refine hperm.trans ((List.perm_append_comm.append_left _).trans ?_)
  rw [← List.append_assoc, ← formValues_append]
  exact .refl _

/-- Such a field is submitted with its value. -/
theorem formValue_of_submission (h : entries.Perm (submission state addresses))
    {name value : String} (hname : "canRead" ≠ name) (hbox : "mailbox" ≠ name)
    (hvalue : formValues (singleFields state) name = [value]) :
    formValue entries name = some (.string value) := by
  apply formValue_of_single
  have hperm := formValues_single h hname
  rwa [hvalue, if_neg hbox, List.append_nil] at hperm

/-- The boxes are submitted with the ids that are checked. -/
theorem mailboxes_of_submission (h : entries.Perm (submission state addresses)) :
    (formValues entries "mailbox").Perm (checkedIds state addresses) := by
  have hnone : formValues (singleFields state) "mailbox" = [] := by
    simp [formValues, singleFields]
  have hperm := formValues_single h (show "canRead" ≠ "mailbox" by decide)
  rwa [hnone, if_pos rfl, List.nil_append] at hperm

/-- Reading is submitted when it is checked. -/
theorem canRead_of_submission (h : entries.Perm (submission state addresses)) :
    ∃ canRead, optionalField (formValue entries "canRead") = some canRead ∧
      canRead.isSome = state.canRead := by
  have hperm := formValues_perm h "canRead"
  rw [formValues_submission] at hperm
  cases hread : state.canRead with
  | true =>
    have hvalue : formValue entries "canRead" = some (.string "on") := by
      apply formValue_of_single
      simpa [formValues, laterEntries, hread] using hperm
    exact ⟨some "on", by rw [hvalue]; rfl, rfl⟩
  | false =>
    have hvalue : formValue entries "canRead" = none := by
      apply formValue_of_none
      simpa [formValues, laterEntries, hread] using hperm
    exact ⟨none, by rw [hvalue]; rfl, rfl⟩

omit [Unicode] in
theorem fieldScope_of_value (scope : FieldScope) {word : String} (hword : word ≠ "some") :
    (if some (scope.value word) = some "some" then FieldScope.some else .every) = scope := by
  cases scope with
  | every => exact if_neg fun heq => hword (Option.some.inj heq)
  | some => rfl

omit [Unicode] in
theorem sendMode_of_value (sendMode : SendModeKind) :
    (if some sendMode.value = some "deny" then SendModeKind.deny
      else if some sendMode.value = some "allow" then .allow
      else .requireApproval) = sendMode := by
  cases sendMode <;> decide

/-- **Submission.** The entries of an unchanged form, in any order, hold the
    state that was rendered, with the boxes in that order. -/
theorem submittedState_of_submission (h : entries.Perm (submission state addresses)) :
    ∃ form ids, decodeClientForm entries = some form ∧ ids.Perm (checkedIds state addresses) ∧
      submittedState form = { state with mailboxIds := ids } := by
  have hscope : formValue entries "mailboxScope" =
      some (.string (state.mailboxScope.value "all")) :=
    formValue_of_submission h (by decide) (by decide) (by simp [formValues, singleFields])
  have hsending : formValue entries "sendMode" = some (.string state.sendMode.value) :=
    formValue_of_submission h (by decide) (by decide) (by simp [formValues, singleFields])
  have hpreapproved : formValue entries "preapproved" = some (.string state.preapproved) :=
    formValue_of_submission h (by decide) (by decide) (by simp [formValues, singleFields])
  have hrecipientScope : formValue entries "recipientScope" =
      some (.string (state.recipientScope.value "any")) :=
    formValue_of_submission h (by decide) (by decide) (by simp [formValues, singleFields])
  have hrecipients : formValue entries "recipients" = some (.string state.recipients) :=
    formValue_of_submission h (by decide) (by decide) (by simp [formValues, singleFields])
  obtain ⟨canRead, hcanRead, hisSome⟩ := canRead_of_submission h
  have hdecode : decodeClientForm entries = some
      { mailboxScope := some (state.mailboxScope.value "all")
        mailbox := formValue entries "mailbox"
        canRead
        sendMode := some state.sendMode.value
        preapproved := some state.preapproved
        recipientScope := some (state.recipientScope.value "any")
        recipients := some state.recipients } := by
    unfold decodeClientForm
    rw [hscope, hcanRead, hsending, hpreapproved, hrecipientScope, hrecipients]
    rfl
  refine ⟨_, formValues entries "mailbox", hdecode, mailboxes_of_submission h, ?_⟩
  simp only [submittedState, fieldScope_of_value state.mailboxScope
    (show "all" ≠ "some" by decide),
    fieldScope_of_value state.recipientScope (show "any" ≠ "some" by decide),
    sendMode_of_value, hisSome, submittedIds, Option.getD_some]

end submitted

/-! ### What a saved form grants -/

/-- All mailboxes, or the same set of them. -/
inductive PrincipalMailboxIds.Same : PrincipalMailboxIds → PrincipalMailboxIds → Prop where
  | all : Same .all .all
  | only {first first' : String} {rest rest' : List String} :
      (∀ id, id ∈ first' :: rest' ↔ id ∈ first :: rest) →
        Same (.only first rest) (.only first' rest')

/-- The two policies grant the same. -/
structure PrincipalPolicy.SameAuthority (policy policy' : PrincipalPolicy) : Prop where
  mailboxes : policy.mailboxIds.Same policy'.mailboxIds
  canRead : policy'.canRead = policy.canRead
  /-- With the recipients that need no approval. -/
  sendMode : policy'.sendMode = policy.sendMode
  recipients : policy'.recipientAllowlist = policy.recipientAllowlist

/-- The text of the mailboxes field. -/
def PolicyFormState.mailboxesText (state : PolicyFormState) : String :=
  match state.mailboxScope with
  | .every => "all"
  | .some => ",".intercalate state.mailboxIds

def PolicyFormState.recipientsText (state : PolicyFormState) : String :=
  match state.recipientScope with
  | .every => "any"
  | .some => state.recipients

omit [Unicode] in
theorem decodePolicyForm_input (state : PolicyFormState) :
    decodePolicyForm (policyInput state) = some
      { mailboxes := state.mailboxesText
        sendMode := state.sendMode
        canRead := some state.canRead
        recipients := some state.recipientsText
        preapproved := some state.preapproved } := by
  have hsending : decodeSendMode (some (.string state.sendMode.value)) = some state.sendMode := by
    cases state.sendMode <;> rfl
  have hmember : (policyInput state).member "sendMode" = some (.string state.sendMode.value) := rfl
  unfold decodePolicyForm
  rw [hmember, hsending]
  rfl

variable {policy : PrincipalPolicy}

theorem formSendMode_state [LawfulUnicode] {form : PolicyForm}
    (h : Listed policy.sendMode.preapproved) (hsending : form.sendMode = policy.sendMode.kind)
    (hpreapproved : form.preapproved = some (joinAddresses policy.sendMode.preapproved)) :
    formSendMode form = .ok policy.sendMode := by
  unfold formSendMode
  rw [hsending, hpreapproved]
  cases hmode : policy.sendMode with
  | deny => rfl
  | allow => rfl
  | requireApproval preapprovedRecipients =>
    rw [hmode] at h
    exact congrArg (Except.map _) (parseMailAddressList_join h)

theorem recipientsText_state (policy : PrincipalPolicy) :
    (policyFormState (some policy)).recipientsText =
      match policy.recipientAllowlist with
      | .any => "any"
      | .only first rest => joinAddresses (first :: rest) := by
  obtain ⟨_, _, _, _ | _⟩ := policy <;> rfl

theorem parseRecipients_state [LawfulUnicode] (h : Listed policy.recipientAllowlist.addresses) :
    parsePrincipalRecipientAllowlist (policyFormState (some policy)).recipientsText =
      .ok policy.recipientAllowlist := by
  rw [recipientsText_state]
  cases hallow : policy.recipientAllowlist with
  | any => exact parsePrincipalRecipientAllowlist_any
  | only first rest =>
    rw [hallow] at h
    exact parsePrincipalRecipientAllowlist_join h

theorem mailboxesText_state (policy : PrincipalPolicy) (ids : List String) :
    ({ policyFormState (some policy) with mailboxIds := ids } : PolicyFormState).mailboxesText =
      match policy.mailboxIds with
      | .all => "all"
      | .only _ _ => ",".intercalate ids := by
  obtain ⟨_ | _, _, _, _⟩ := policy <;> rfl

/-- The checked boxes are those of the policy. -/
theorem mem_checkedIds {addresses : List AccountAddress}
    (hlisted : ∀ id ∈ policy.mailboxIds.ids, ∃ a ∈ addresses, a.id = id) (id : String) :
    id ∈ checkedIds (policyFormState (some policy)) addresses ↔
      id ∈ policy.mailboxIds.ids := by
  have hids : (policyFormState (some policy)).mailboxIds = policy.mailboxIds.ids := rfl
  unfold checkedIds
  rw [List.mem_filter, List.mem_map, List.contains_iff_mem, hids]
  exact ⟨fun h => h.2, fun hmem => ⟨hlisted id hmem, hmem⟩⟩

/-- The mailboxes of an unchanged form are read as those of the policy. -/
theorem parseMailboxes_state {ids : List String}
    (hentries : ∀ id ∈ policy.mailboxIds.ids, IsEntry id)
    (hword : "all" ∉ policy.mailboxIds.ids) (hids : ∀ id, id ∈ ids ↔
      id ∈ policy.mailboxIds.ids) :
    ∃ mailboxIds, parsePrincipalMailboxIds
        ({ policyFormState (some policy) with mailboxIds := ids } : PolicyFormState).mailboxesText =
          some mailboxIds ∧ policy.mailboxIds.Same mailboxIds := by
  rw [mailboxesText_state]
  cases hpolicy : policy.mailboxIds with
  | all => exact ⟨.all, parsePrincipalMailboxIds_all, .all⟩
  | only first rest =>
    rw [hpolicy] at hentries hword hids
    have hne : ids ≠ [] := List.ne_nil_of_mem ((hids first).mpr List.mem_cons_self)
    have hall : ids ≠ ["all"] := by
      rintro rfl
      exact hword ((hids "all").mp List.mem_cons_self)
    obtain ⟨first', rest', hparse, hsame⟩ :=
      parsePrincipalMailboxIds_join (fun id hid => hentries id ((hids id).mp hid)) hne hall
    exact ⟨_, hparse, .only fun id => (hsame id).trans (hids id)⟩

/-- A form that is submitted as it was rendered leaves the authority as it is,
    when no mailbox goes by the word for all. -/
theorem saveClient_submission [LawfulUnicode] {addresses : List AccountAddress}
    {entries : List (String × String)} (hpolicy : policy.Enterable)
    (hlisted : ∀ id ∈ policy.mailboxIds.ids, ∃ a ∈ addresses, a.id = id)
    (hword : "all" ∉ policy.mailboxIds.ids)
    (hentries : entries.Perm (submission (policyFormState (some policy)) addresses)) :
    ∃ policy', saveClient entries = some (.ok policy') ∧ policy.SameAuthority policy' := by
  obtain ⟨form, ids, hdecode, hids, hstate⟩ := submittedState_of_submission hentries
  obtain ⟨mailboxIds, hmailboxes, hsame⟩ := parseMailboxes_state hpolicy.mailboxes hword
    fun id => hids.mem_iff.trans (mem_checkedIds hlisted id)
  -- the other two fields do not depend on the boxes
  have hrecipients : parsePrincipalRecipientAllowlist
      ({ policyFormState (some policy) with mailboxIds := ids } : PolicyFormState).recipientsText =
        .ok policy.recipientAllowlist := parseRecipients_state hpolicy.recipients
  refine ⟨{ policy with mailboxIds }, ?_, hsame, rfl, rfl, rfl⟩
  unfold saveClient policyFromForm
  rw [hdecode, Option.map_some, hstate, decodePolicyForm_input]
  simp only [hmailboxes, Option.getD_some, hrecipients]
  rw [formSendMode_state hpolicy.preapproved rfl rfl]
  rfl

/-- **Editing.** A policy made from a form is stored and read back as it is.
    Its form, submitted as it was rendered over any existing mailboxes, is
    saved as a policy that grants the same. -/
theorem policyFromForm_edit [LawfulSeparator] {input : Data}
    (h : policyFromForm input = .ok policy) :
    decodeStoredPolicy (.object [("policy", .string (encodePolicy policy))]) = some policy ∧
      ∀ (s : Store) (addresses : List AccountAddress) (entries : List (String × String)),
        s.ReachedBy Command.MintsUuid →
        (∀ a ∈ addresses, ∃ row ∈ s.addresses, row.id = a.id) →
        (∀ id ∈ policy.mailboxIds.ids, ∃ a ∈ addresses, a.id = id) →
        entries.Perm (submission (policyFormState (some policy)) addresses) →
        ∃ policy', saveClient entries = some (.ok policy') ∧ policy.SameAuthority policy' := by
  refine ⟨decodeStoredPolicy_encode policy, ?_⟩
  intro s addresses entries hs hexisting hlisted hentries
  have hword : "all" ∉ policy.mailboxIds.ids := by
    intro hmem
    obtain ⟨a, ha, hid⟩ := hlisted "all" hmem
    obtain ⟨row, hrow, heq⟩ := hexisting a ha
    have huuid := hs.isUuid_address row hrow
    rw [heq, hid] at huuid
    exact absurd huuid (by decide)
  exact saveClient_submission (policyFromForm_enterable h) hlisted hword hentries

end clients

/-! ### At the mapping of ASCII -/

namespace Sample

def mailboxUuid : String := "3f2504e0-4f89-41d3-9a0c-0305e82c3301"

/-- One mailbox, which may be read; messages to one recipient need no approval. -/
def clientInput : Data :=
  .object
    [("mailboxes", .string " 3f2504e0-4f89-41d3-9a0c-0305e82c3301,"),
      ("sendMode", .string "requireApproval"), ("preapproved", .string "Bob@Example.org , ")]

end Sample

open Sample.External in
/-- The store with that mailbox. -/
def Sample.clientStore : Store :=
  Store.empty.exec (.createAddress mailboxUuid "agent" "example.com" none 10 true)

open Sample.External in
theorem policyFromForm_edit_client : ∃ policy policy' mailbox,
    policyFromForm Sample.clientInput = .ok policy ∧
    decodeStoredPolicy (.object [("policy", .string (encodePolicy policy))]) = some policy ∧
    saveClient (submission (policyFormState (some policy)) [mailbox]) = some (.ok policy') ∧
    policy.SameAuthority policy' := by
  have hok : (match policyFromForm Sample.clientInput with
    | .ok policy => decide (policy.mailboxIds.ids = [Sample.mailboxUuid])
    | .invalid _ _ => false) = true := by decide +kernel
  have hminted : Sample.clientStore.ReachedBy Command.MintsUuid :=
    .exec _ .empty (show isUuid Sample.mailboxUuid = true by decide +kernel)
  have hfound : (getAddress Sample.clientStore Sample.mailboxUuid).map (·.id) =
      some Sample.mailboxUuid := by decide +kernel
  have hrow : Sample.clientStore.addresses.rows.any (·.id = Sample.mailboxUuid) = true := by
    decide +kernel
  split at hok
  · next policy hpolicy =>
    have hids : policy.mailboxIds.ids = [Sample.mailboxUuid] := of_decide_eq_true hok
    obtain ⟨mailbox, -, hid⟩ := Option.map_eq_some_iff.mp hfound
    obtain ⟨row, hmem, heq⟩ := List.any_eq_true.mp hrow
    have hexisting : ∀ a ∈ [mailbox],
        ∃ row ∈ Sample.clientStore.addresses, row.id = a.id := by
      intro a ha
      rw [List.mem_singleton.mp ha, hid]
      exact ⟨row, hmem, of_decide_eq_true heq⟩
    have hlisted : ∀ id ∈ policy.mailboxIds.ids, ∃ a ∈ [mailbox], a.id = id := by
      intro id hmem
      rw [hids] at hmem
      exact ⟨mailbox, List.mem_cons_self, hid.trans (List.mem_singleton.mp hmem).symm⟩
    obtain ⟨hstored, hedit⟩ := policyFromForm_edit hpolicy
    obtain ⟨policy', hsaved, hsame⟩ := hedit _ _ _ hminted hexisting hlisted (.refl _)
    exact ⟨policy, policy', mailbox, hpolicy, hstored, hsaved, hsame⟩
  · cases hok

end Umail
