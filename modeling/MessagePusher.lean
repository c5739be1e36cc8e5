import MessagePusher.Access.Accounts
import MessagePusher.Access.ChannelSecrets
import MessagePusher.Access.EmailUniqueness
import MessagePusher.Access.GeneratedNames
import MessagePusher.Access.GlobalToken
import MessagePusher.Access.LegalNames
import MessagePusher.Access.LostUpdates
import MessagePusher.Access.ManageableAccounts
import MessagePusher.Access.NameWrites
import MessagePusher.Access.PushAuthorisation
import MessagePusher.Access.RoleHierarchy
import MessagePusher.Access.RootAccount
import MessagePusher.Access.StaleSessions
import MessagePusher.Access.TenantReads
import MessagePusher.Access.TenantWrites
import MessagePusher.Access.ThirdPartyIds
import MessagePusher.Bin.Migration
import MessagePusher.Channel.Client
import MessagePusher.Channel.Custom
import MessagePusher.Channel.Dispatch
import MessagePusher.Channel.LarkApp
import MessagePusher.Channel.LarkAppMessage
import MessagePusher.Channel.MessageQueue
import MessagePusher.Channel.Replies
import MessagePusher.Channel.Rewriting
import MessagePusher.Channel.Senders
import MessagePusher.Channel.Telegram
import MessagePusher.Channel.TokenStore
import MessagePusher.Channel.UrlGuard
import MessagePusher.Channel.Views
import MessagePusher.CommandLine.Options
import MessagePusher.Common.Constants
import MessagePusher.Common.Email
import MessagePusher.Common.Json
import MessagePusher.Common.RateLimit
import MessagePusher.Common.Sql
import MessagePusher.Common.TemplateBytes
import MessagePusher.Common.Text
import MessagePusher.Common.TrimSpace
import MessagePusher.Common.Variables
import MessagePusher.Common.Verification
import MessagePusher.Controller.Channel
import MessagePusher.Controller.DatabaseFaults
import MessagePusher.Controller.Extraction
import MessagePusher.Controller.Login
import MessagePusher.Controller.MessageSse
import MessagePusher.Controller.Misc
import MessagePusher.Controller.Pages
import MessagePusher.Controller.Push
import MessagePusher.Controller.PushIsolation
import MessagePusher.Controller.Reads
import MessagePusher.Controller.Render
import MessagePusher.Controller.Resend
import MessagePusher.Controller.TruthfulAnswers
import MessagePusher.Controller.UpdateOption
import MessagePusher.Controller.User
import MessagePusher.Controller.UserCallRuns
import MessagePusher.Controller.UserCalls
import MessagePusher.Controller.UserEffects
import MessagePusher.Controller.Webhook
import MessagePusher.Controller.WebhookRows
import MessagePusher.Delivery.AsyncQueue
import MessagePusher.Delivery.AtMostOnce
import MessagePusher.Delivery.CodeFence
import MessagePusher.Delivery.Confirmed
import MessagePusher.Delivery.CustomVariables
import MessagePusher.Delivery.DetailLink
import MessagePusher.Delivery.Disabled
import MessagePusher.Delivery.Drain
import MessagePusher.Delivery.EditorResend
import MessagePusher.Delivery.GroupOutcome
import MessagePusher.Delivery.GroupProduct
import MessagePusher.Delivery.MessageStatus
import MessagePusher.Delivery.NoLoss
import MessagePusher.Delivery.PathAgreement
import MessagePusher.Delivery.StartUp
import MessagePusher.Float64.Conversion
import MessagePusher.Float64.Nearest
import MessagePusher.JsonText.Decode
import MessagePusher.JsonText.Leading
import MessagePusher.JsonText.Lengths
import MessagePusher.JsonText.Lexer
import MessagePusher.JsonText.Literal
import MessagePusher.JsonText.Numbers
import MessagePusher.JsonText.OwnMembers
import MessagePusher.JsonText.Parser
import MessagePusher.JsonText.Pretty
import MessagePusher.JsonText.Tree
import MessagePusher.Mail.EncodedWord
import MessagePusher.Markdown.Fences
import MessagePusher.Middleware.Auth
import MessagePusher.Middleware.RateLimit
import MessagePusher.Model.Channel
import MessagePusher.Model.ConstructRule
import MessagePusher.Model.ExtraVariables
import MessagePusher.Model.Main
import MessagePusher.Model.Message
import MessagePusher.Model.Option
import MessagePusher.Model.OptionUpdates
import MessagePusher.Model.RuleDocument
import MessagePusher.Model.User
import MessagePusher.Model.UserColumns
import MessagePusher.Model.Webhook
import MessagePusher.Net.Url
import MessagePusher.RateLimit.Agreement
import MessagePusher.RateLimit.Memory
import MessagePusher.RateLimit.Redis
import MessagePusher.RateLimit.SlidingLog
import MessagePusher.Release.Affixes
import MessagePusher.Release.BuildArgs
import MessagePusher.Release.Dispatch
import MessagePusher.Release.FailedPublish
import MessagePusher.Release.Jobs
import MessagePusher.Release.LatestOwner
import MessagePusher.Release.LegalTags
import MessagePusher.Release.Matrix
import MessagePusher.Release.Pipeline
import MessagePusher.Release.Planned
import MessagePusher.Release.Preflight
import MessagePusher.Release.Prerelease
import MessagePusher.Release.Recovery
import MessagePusher.Release.SemverPattern
import MessagePusher.Release.SharedTags
import MessagePusher.Release.TagNames
import MessagePusher.Release.TagScan
import MessagePusher.Release.TypedVersion
import MessagePusher.Release.UnsuffixedOwner
import MessagePusher.Release.VariantTable
import MessagePusher.Release.Versions
import MessagePusher.Scripts.BuildArgs
import MessagePusher.Scripts.BuildPush
import MessagePusher.Scripts.Config
import MessagePusher.Scripts.Docker
import MessagePusher.Scripts.Language
import MessagePusher.Scripts.Meta
import MessagePusher.Scripts.Preflight
import MessagePusher.Scripts.Publish
import MessagePusher.Scripts.Resolve
import MessagePusher.Semantics.Cursor
import MessagePusher.Semantics.Fallible
import MessagePusher.Semantics.Process
import MessagePusher.Semantics.ReadWriteLock
import MessagePusher.Semantics.Transition
import MessagePusher.Sse.Deadlock
import MessagePusher.Sse.Registration
import MessagePusher.Sse.Streams
import MessagePusher.Store.Agreement
import MessagePusher.Store.Assignments
import MessagePusher.Store.Cells
import MessagePusher.Store.Coverage
import MessagePusher.Store.Entries
import MessagePusher.Store.KeyedList
import MessagePusher.Store.Table
import MessagePusher.Store.UniqueColumn
import MessagePusher.Substitution.LongestName
import MessagePusher.Substitution.MaximalRun
import MessagePusher.Substitution.Pieces
import MessagePusher.Substitution.Replacement
import MessagePusher.Telegram.Characters
import MessagePusher.Telegram.Posts
import MessagePusher.Telegram.Progress
import MessagePusher.Telegram.SizeLimit
import MessagePusher.Telegram.Splits
import MessagePusher.Template.ByteScan
import MessagePusher.Template.DottedSuffix
import MessagePusher.Template.EncodedTexts
import MessagePusher.Template.Engines
import MessagePusher.Template.IdentityScript
import MessagePusher.Template.JsonBodies
import MessagePusher.Template.PathOccurrences
import MessagePusher.Template.PathReference
import MessagePusher.Template.Placeholders
import MessagePusher.Template.Quoting
import MessagePusher.Template.Simultaneous
import MessagePusher.Template.Structure
import MessagePusher.Template.WebhookPipeline
import MessagePusher.TokenStore.ChannelChanges
import MessagePusher.TokenStore.Coverage
import MessagePusher.TokenStore.Credentials
import MessagePusher.TokenStore.FirstRefresh
import MessagePusher.TokenStore.Overlap
import MessagePusher.TokenStore.Refresh
import MessagePusher.TokenStore.UserChanges
import MessagePusher.Utf8.Runes
import MessagePusher.Verification.CodeMap
import MessagePusher.Verification.PasswordReset
import MessagePusher.Verification.TimedMap
import MessagePusher.Web.DeletedRows
import MessagePusher.Web.EditMessage
import MessagePusher.Web.Editors
import MessagePusher.Web.Format
import MessagePusher.Web.LiveRows
import MessagePusher.Web.MessagesTable
import MessagePusher.Web.PagedTables
import MessagePusher.Web.PushSetting
import MessagePusher.WebSocket.Clients
import MessagePusher.WebSocket.DeadWriters
import MessagePusher.WebSocket.OneClient
