import Umail.Contract.MailContact

/-! # Principal policies

  `PrincipalPolicy` of `packages/api-contract/src/principal-authorization.ts`:
  what a client may read and send. The non-empty arrays of the schema keep
  their head apart.
-/

namespace Umail

variable [Unicode]

/-- `PrincipalMailboxIds` -/
inductive PrincipalMailboxIds where
  | all
  | only (first : String) (rest : List String)

/-- `PrincipalSendMode` -/
inductive PrincipalSendMode where
  | deny
  | allow
  | requireApproval (preapprovedRecipients : List ExternalMailAddress)

/-- `PrincipalRecipientAllowlist` -/
inductive PrincipalRecipientAllowlist where
  | any
  | only (first : ExternalMailAddress) (rest : List ExternalMailAddress)

structure PrincipalPolicy where
  mailboxIds : PrincipalMailboxIds
  canRead : Bool
  sendMode : PrincipalSendMode
  recipientAllowlist : PrincipalRecipientAllowlist

/-- `OPERATOR_POLICY` -/
def operatorPolicy : PrincipalPolicy where
  mailboxIds := .all
  canRead := true
  sendMode := .allow
  recipientAllowlist := .any

end Umail
