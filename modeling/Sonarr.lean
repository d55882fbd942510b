import Sonarr.Commands.Ownership
import Sonarr.Commands.Leases
import Sonarr.Commands.Tracking
import Sonarr.Commands.ClientItems
import Sonarr.RssSync.Winner
import Sonarr.RssSync.Upgrade
import Sonarr.RssSync.SentOnce
import Sonarr.Commands.WorkerPool
import Sonarr.RssSync.OwnSettings
import Sonarr.RssSync.OrderFree
import Sonarr.Library.FileLinks
import Sonarr.Library.Statistics
import Sonarr.Library.EpisodeWriters
import Sonarr.Api.Pagination
import Sonarr.Realtime.Broker
import Sonarr.Metadata.Tvdb
import Sonarr.Migrate.Nulls
import Sonarr.Migrate.Policy
import Sonarr.Migrate.Times
import Sonarr.Events.Bus
import Sonarr.DecisionEngine.Upgrades
import Sonarr.DecisionEngine.Sizes
import Sonarr.RssSync.QualityNames
import Sonarr.Auth.ConfigWriters
import Sonarr.Importer.MultiEpisode
import Sonarr.Providers.Choice
import Sonarr.RssSync.SizeScores
import Sonarr.Migrate.Remaps
import Sonarr.Library.Resolver
import Sonarr.Importer.RoundTrip
import Sonarr.Importer.TransferSizes
import Sonarr.Importer.CopyRaces
import Sonarr.Metadata.Cached
import Sonarr.Fswatcher.Debouncer
import Sonarr.Metadata.RateLimit
import Sonarr.Providers.TransmissionSession
import Sonarr.Api.PagedOrder
import Sonarr.Api.SeriesUpdates
import Sonarr.Api.QualityProfiles
import Sonarr.Providers.Notifications
import Sonarr.Api.CalendarFeed
import Sonarr.Api.ErrorBodies
import Sonarr.Library.MonitorSink
import Sonarr.Api.LimiterMap
import Sonarr.Backup.Retention
import Sonarr.Library.RecycleBin
import Sonarr.RemotePathMapping.Translate
import Sonarr.Api.RootFolders
import Sonarr.SceneMapping.Lookup
import Sonarr.Parser.CleanTitle
import Sonarr.Autotag.Tags
import Sonarr.Scheduler.Served
import Sonarr.Commands.Waiting
import Sonarr.Commands.Handout
import Sonarr.Auth.Access
import Sonarr.Providers.Feeds
import Sonarr.Metadata.Token
