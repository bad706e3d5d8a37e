import SocialMonitor.Pages
import SocialMonitor.Accounts.Upsert
import SocialMonitor.Auth.Guard
import SocialMonitor.Backend.Atomic
import SocialMonitor.Backend.Drain
import SocialMonitor.Backend.Lifecycle
import SocialMonitor.Backend.Orphans
import SocialMonitor.Backend.Pipeline
import SocialMonitor.Backend.Provenance
import SocialMonitor.Backend.Removal
import SocialMonitor.Channels.ForwardText
import SocialMonitor.Channels.Requests
import SocialMonitor.Channels.Token
import SocialMonitor.Channels.Validated
import SocialMonitor.Credentials
import SocialMonitor.Crypto.Key
import SocialMonitor.Messages.Jobs
import SocialMonitor.Messages.Journal
import SocialMonitor.Messages.LastMessage
import SocialMonitor.Monitors.Failures
import SocialMonitor.Monitors.Resolution
import SocialMonitor.Monitors.Usable
import SocialMonitor.Notifications.Consistency
import SocialMonitor.Notifications.Delivery
import SocialMonitor.Notifications.Dispatch
import SocialMonitor.Notifications.Retry
import SocialMonitor.Qq.Lifetime
import SocialMonitor.Qq.OneSocket
import SocialMonitor.Qq.Sequence
import SocialMonitor.Qq.Timers
import SocialMonitor.Sidecar.Codes
import SocialMonitor.Sidecar.Current
import SocialMonitor.Telegram.Forward
import SocialMonitor.Web.DateFilters
import SocialMonitor.Web.LatestMessages
