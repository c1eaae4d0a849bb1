import CoopMessenger.Library.Runs
import CoopMessenger.Library.Table
import CoopMessenger.Library.Wildcard
import CoopMessenger.Library.Ranking
import CoopMessenger.Manager.Types
import CoopMessenger.Manager.Patterns
import CoopMessenger.Manager.Database
import CoopMessenger.Manager.Authorize
import CoopMessenger.Manager.Contacts
import CoopMessenger.Server.Contacts
import CoopMessenger.Library.Registry
import CoopMessenger.Server.Topics
import CoopMessenger.Server.Visitors
import CoopMessenger.Server.Groups
import CoopMessenger.Server.Message
import CoopMessenger.Server.MessageCache
import CoopMessenger.Server.Polling
import CoopMessenger.Util.BatchingQueue
import CoopMessenger.Server.Delivery
import CoopMessenger.Server.Revocation
import CoopMessenger.Server.Publish
import CoopMessenger.Server.Disclosure
import CoopMessenger.Manager.Reservations
import CoopMessenger.Server.Leaving
import CoopMessenger.Manager.Profiles
import CoopMessenger.Server.DirectMessages
import CoopMessenger.Server.Reserving
import CoopMessenger.Server.TopicData
import CoopMessenger.Manager.Accounts
import CoopMessenger.Server.Accounts
import CoopMessenger.Manager.Ownership
import CoopMessenger.Server.Ownership
import CoopMessenger.Library.Relational
import CoopMessenger.Library.SchemaAgreement
import CoopMessenger.Library.Transactions
import CoopMessenger.Library.SchemaChanges
import CoopMessenger.Manager.UserSchema
import CoopMessenger.Manager.UserManager
import CoopMessenger.Manager.UserMigrations
import CoopMessenger.Server.Invites
import CoopMessenger.Library.Interleaving
import CoopMessenger.Library.RowChanges
import CoopMessenger.Manager.UserLogins
import CoopMessenger.Server.JoinRequests
import CoopMessenger.Manager.Provisioning
import CoopMessenger.Manager.ProvisionedRows
import CoopMessenger.Manager.ProvisionedUsers
import CoopMessenger.Manager.ProvisioningRuns
import CoopMessenger.Manager.StatsQueue
import CoopMessenger.Server.Throttling
import CoopMessenger.Server.Scheduling
import CoopMessenger.Server.DelayedSending
import CoopMessenger.Server.Cancelling
import CoopMessenger.Server.Replacing
import CoopMessenger.Server.FileCache
import CoopMessenger.Server.AttachmentFiles
import CoopMessenger.Server.Preferences
import CoopMessenger.Server.TopicNames
import CoopMessenger.Server.Reactions
import CoopMessenger.Library.Dictionary
import CoopMessenger.Library.Json
import CoopMessenger.Util.Runes
import CoopMessenger.Util.Unmarshal
import CoopMessenger.Server.ActionTexts
import CoopMessenger.Server.MessageJSON
import CoopMessenger.Server.JsonPublish
import CoopMessenger.Server.MessageRows
import CoopMessenger.Server.StoredCopies
import CoopMessenger.Server.SinceTimes
import CoopMessenger.Util.NetIP
import CoopMessenger.Server.VisitorKeys
import CoopMessenger.Server.ForwardedAddresses
import CoopMessenger.Server.MailVisitors
import CoopMessenger.Server.WebPush
import CoopMessenger.Library.Limits
import CoopMessenger.Manager.TokenCreation
import CoopMessenger.Server.MailBodies
import CoopMessenger.Library.Pools
import CoopMessenger.Web.ConnectionManager
import CoopMessenger.Server.FailedPublishes
import CoopMessenger.Library.Slots
import CoopMessenger.Web.Notifications
import CoopMessenger.Web.Deliveries
import CoopMessenger.Library.SchemaScripts
import CoopMessenger.Server.CacheSchema
import CoopMessenger.Server.CacheMigrations
import CoopMessenger.Library.Sorting
import CoopMessenger.Server.OldMessages
import CoopMessenger.Server.RejectedRequests
import CoopMessenger.Server.GroupCreation
import CoopMessenger.Library.PartialWrites
import CoopMessenger.Server.FailedUpdates
import CoopMessenger.Server.Downgrades
import CoopMessenger.Server.TierChanges
import CoopMessenger.Server.MessageSizes
import CoopMessenger.Util.Cuts
import CoopMessenger.Server.Truncations
import CoopMessenger.Util.FutureTime
import CoopMessenger.Server.Delays
import CoopMessenger.Server.KeptAttachments
import CoopMessenger.Util.Sizes
import CoopMessenger.Util.FormattedDurations
import CoopMessenger.Util.LimitWriters
import CoopMessenger.Server.FirebasePayloads
import CoopMessenger.Util.BatchOrder
import CoopMessenger.Server.SubscriptionLimits
import CoopMessenger.Library.Grouping
import CoopMessenger.Server.ReactionListings
import CoopMessenger.Manager.UserSearch
import CoopMessenger.Server.ActionSpellings
import CoopMessenger.Library.Readers
import CoopMessenger.Util.Peek
import CoopMessenger.Server.ActionPositions
import CoopMessenger.Server.SocialLimits
import CoopMessenger.Web.ClientConnection
import CoopMessenger.Web.FetchedLines
import CoopMessenger.Web.PollCursor
import CoopMessenger.Server.Avatars
import CoopMessenger.Server.MigratedMessages
import CoopMessenger.Cmd.AuthSettings
import CoopMessenger.Library.Base64
import CoopMessenger.Library.DamagedTexts
import CoopMessenger.Library.Histories
import CoopMessenger.Library.Templates
import CoopMessenger.Server.Credentials
import CoopMessenger.Server.ExpiryWarnings
import CoopMessenger.Server.MailSessions
import CoopMessenger.Server.MessageValues
import CoopMessenger.Server.OutgoingMails
import CoopMessenger.Server.RateVisitors
import CoopMessenger.Server.Streams
import CoopMessenger.Web.EventSource
import CoopMessenger.Web.Logins
import CoopMessenger.Web.PolledMessages
import CoopMessenger.Web.SubscriptionSync
