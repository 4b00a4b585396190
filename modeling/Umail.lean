import Umail.Framework.Machine
import Umail.Framework.Table
import Umail.Framework.Pool
import Umail.Contract.Text
import Umail.Contract.MessageThreading
import Umail.Contract.MailContact
import Umail.Contract.Policy
import Umail.Account.Domain
import Umail.Framework.Components
import Umail.Account.Threading
import Umail.Account.Commands
import Umail.Account.Administration
import Umail.Account.Jobs
import Umail.Account.Store
import Umail.Account.Content
import Umail.Account.Deletion
import Umail.Account.ThreadInvariant
import Umail.Account.Peripheral
import Umail.Account.RecipientRouting
import Umail.Mail.Dispatch
import Umail.Mail.SendLog
import Umail.Mail.Authorization
import Umail.Mail.Review
import Umail.Mail.Notification
import Umail.Account.DueWork
import Umail.Account.Worker
import Umail.Account.Retirement
import Umail.Account.RuleOwnership
import Umail.Account.RuleUniqueness
import Umail.Account.Draining
import Umail.Account.Quiescence
import Umail.Cli.CredentialLock
import Umail.Cli.RecipientCutover
import Umail.Account.Wakeup
import Umail.Framework.Json
import Umail.Framework.JsString
import Umail.Framework.Paging
import Umail.Framework.Record
import Umail.Mail.Archive
import Umail.Mail.InlineStyle
import Umail.Mail.HtmlPolicy
import Umail.Mail.HtmlActivation
import Umail.Mail.HtmlDepth
import Umail.Mail.ProcessIndex
import Umail.Mail.Provider
import Umail.Account.Receipts
import Umail.Mail.Inbound
import Umail.Mail.ExactlyOnce
import Umail.Mail.Forwarding
import Umail.Mail.Decision
import Umail.Contract.Submission
import Umail.Account.Submission
import Umail.Account.Identifiers
import Umail.Account.Integrity
import Umail.Account.Confinement
import Umail.Account.Migrations
import Umail.Account.Paging
import Umail.Account.ThreadList
import Umail.Contract.References
import Umail.Contract.MessageIdCoding
import Umail.Contract.MailboxForm
import Umail.Contract.ExternalAddress
import Umail.Contract.MailDomain
import Umail.Api.ReplyPlan
import Umail.Api.Operations
import Umail.Api.HeaderCoding
import Umail.Api.Attachments
import Umail.Api.Cursor
import Umail.Api.Listings
import Umail.Framework.Lines
import Umail.Framework.Worklist
import Umail.Contract.MessageSource
import Umail.Account.MailboxAddresses
import Umail.Framework.JsonRead
import Umail.Contract.PolicyList
import Umail.Auth.Access
import Umail.Web.Clients
import Umail.Auth.Registration
import Umail.Api.Projection
import Umail.Api.Requests
import Umail.Api.Submit
import Umail.Api.Service
import Umail.Api.Safety
import Umail.Api.Soundness
import Umail.Api.Tools
import Umail.Auth.Database
import Umail.Auth.Grants
import Umail.Auth.Tokens
import Umail.Auth.Provisioning
import Umail.Web.Session
import Umail.Api.Mcp
import Umail.Api.Server
