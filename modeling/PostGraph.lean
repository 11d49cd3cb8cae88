import PostGraph.Foundation.Text
import PostGraph.Foundation.Utf8
import PostGraph.Foundation.Program
import PostGraph.Foundation.Clock
import PostGraph.Foundation.Framing
import PostGraph.Foundation.History
import PostGraph.Foundation.Url
import PostGraph.Foundation.TwoRuns
import PostGraph.Foundation.Replies
import PostGraph.Foundation.Serde
import PostGraph.Foundation.Base64
import PostGraph.Foundation.ByteStream
import PostGraph.Foundation.Selection
import PostGraph.Smtp.Mail
import PostGraph.Smtp.Command
import PostGraph.Smtp.Response
import PostGraph.Smtp.Connection
import PostGraph.Smtp.Handler
import PostGraph.Smtp.Config
import PostGraph.Smtp.Session
import PostGraph.Smtp.Programs
import PostGraph.Smtp.Entries
import PostGraph.Smtp.Wire
import PostGraph.Smtp.ReadLine
import PostGraph.Smtp.Dialogue
import PostGraph.Smtp.Refinement
import PostGraph.Smtp.Server
import PostGraph.Smtp.Interleaving
import PostGraph.Smtp.Ordering
import PostGraph.Smtp.Execution
import PostGraph.Smtp.EndOfData
import PostGraph.Smtp.Upgrade
import PostGraph.Smtp.Transaction
import PostGraph.Smtp.Transcript
import PostGraph.Smtp.Observed
import PostGraph.Smtp.Chunks
import PostGraph.Smtp.Ending
import PostGraph.Smtp.Recipients
import PostGraph.Smtp.SizeLimit
import PostGraph.Smtp.Parameters
import PostGraph.Smtp.Recorder
import PostGraph.Smtp.Answers
import PostGraph.Smtp.Conversation
import PostGraph.Smtp.Substitution
import PostGraph.Smtp.Refusals
import PostGraph.Smtp.Grammar
import PostGraph.Smtp.Credentials
import PostGraph.Smtp.MalformedCredentials
import PostGraph.Smtp.Capabilities
import PostGraph.Smtp.ReadAhead
import PostGraph.Smtp.ReplyLines
import PostGraph.MsGraph.Client
import PostGraph.MsGraph.Traffic
import PostGraph.MsGraph.Uptime
import PostGraph.MailProxy.Delivery
import PostGraph.MailProxy.User
import PostGraph.MailProxy.PeerFilter
import PostGraph.MailProxy.Fail2Ban
import PostGraph.MailProxy.ConfigFile
import PostGraph.MailProxy.Proxy
import PostGraph.MailProxy.PeerCalls
import PostGraph.MailProxy.Counting
import PostGraph.MailProxy.Records
import PostGraph.MailProxy.Expiry
import PostGraph.MailProxy.LoginState
import PostGraph.MailProxy.Relay
import PostGraph.MailProxy.BruteForce
import PostGraph.MailProxy.SenderUrl
import PostGraph.MailProxy.Isolation
import PostGraph.MailProxy.OldFails
import PostGraph.MailProxy.Revocation
import PostGraph.MailProxy.Accounts
import PostGraph.MailProxy.UserEdits
import PostGraph.MailProxy.SendAs
import PostGraph.MailProxy.MappedPeers
import PostGraph.MailProxy.RuleFormat
import PostGraph.MailProxy.RuleGrammar
import PostGraph.MailProxy.UserFormat
import PostGraph.MailProxy.LoadOrder
import PostGraph.MailProxy.ConfigFormat
import PostGraph.MailProxy.AcceptedFiles
import PostGraph.MailProxy.Verdicts
import PostGraph.MailProxy.FilterEdits
import PostGraph.MailProxy.Admission
import PostGraph.MailProxy.Unnoticed
import PostGraph.MailProxy.Forwarding
import PostGraph.MailProxy.NoRecord
import PostGraph.MailProxy.Productivity
import PostGraph.MailProxy.Settings
import PostGraph.App.Cli
import PostGraph.App.Users
import PostGraph.App.RoundTrip
import PostGraph.App.Consent
import PostGraph.App.Main
import PostGraph.App.PlainLogins
import PostGraph.App.Passwords
import PostGraph.App.SenderRights
import PostGraph.App.PeerRules
import PostGraph.App.Settings
