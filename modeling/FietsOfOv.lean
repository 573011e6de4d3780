import FietsOfOv.Advice
import FietsOfOv.Auth.Access
import FietsOfOv.Auth.Accounts
import FietsOfOv.Auth.Ownership
import FietsOfOv.Auth.Registering
import FietsOfOv.Auth.Security
import FietsOfOv.Auth.Service
import FietsOfOv.Banner
import FietsOfOv.Buienradar
import FietsOfOv.CorruptCache
import FietsOfOv.DryVerdict
import FietsOfOv.Endpoints
import FietsOfOv.ExposedMinutes
import FietsOfOv.Geo
import FietsOfOv.Geocoder
import FietsOfOv.Gtfs.Archive
import FietsOfOv.Gtfs.Filter
import FietsOfOv.Gtfs.Idempotence
import FietsOfOv.Gtfs.Integrity
import FietsOfOv.Gtfs.OffPeak
import FietsOfOv.Gtfs.Stations
import FietsOfOv.ImportStops
import FietsOfOv.Itinerary
import FietsOfOv.Lib.Backlog
import FietsOfOv.Lib.Best
import FietsOfOv.Lib.Binary64
import FietsOfOv.Lib.BoundedDict
import FietsOfOv.Lib.CacheAside
import FietsOfOv.Lib.Closure
import FietsOfOv.Lib.Cover
import FietsOfOv.Lib.Csv
import FietsOfOv.Lib.CsvText
import FietsOfOv.Lib.Decimal
import FietsOfOv.Lib.Dict
import FietsOfOv.Lib.ExpiringStore
import FietsOfOv.Lib.Gather
import FietsOfOv.Lib.Grid
import FietsOfOv.Lib.Hull
import FietsOfOv.Lib.IsoFormat
import FietsOfOv.Lib.Json
import FietsOfOv.Lib.JsonTokens
import FietsOfOv.Lib.Lines
import FietsOfOv.Lib.Loop
import FietsOfOv.Lib.Outbox
import FietsOfOv.Lib.OwnedRows
import FietsOfOv.Lib.Pool
import FietsOfOv.Lib.PowTen
import FietsOfOv.Lib.Run
import FietsOfOv.Lib.Seasons
import FietsOfOv.Lib.SharedStore
import FietsOfOv.Lib.Sphere
import FietsOfOv.Lib.Table
import FietsOfOv.Lib.Tally
import FietsOfOv.Lib.Text
import FietsOfOv.Lib.TextCodec
import FietsOfOv.Lib.Upsert
import FietsOfOv.Lib.WallClock
import FietsOfOv.LocalTime
import FietsOfOv.Models
import FietsOfOv.MoreRain
import FietsOfOv.Notify.Database
import FietsOfOv.Notify.Delivery
import FietsOfOv.Notify.Departures
import FietsOfOv.Notify.Drain
import FietsOfOv.Notify.Due
import FietsOfOv.Notify.Effects
import FietsOfOv.Notify.Evaluate
import FietsOfOv.Notify.Faultless
import FietsOfOv.Notify.Isolation
import FietsOfOv.Notify.Missed
import FietsOfOv.Notify.Moves
import FietsOfOv.Notify.Orderly
import FietsOfOv.Notify.Relevance
import FietsOfOv.Notify.Schedule
import FietsOfOv.Notify.Serial
import FietsOfOv.Notify.Smooth
import FietsOfOv.Notify.Sweep
import FietsOfOv.Notify.Tick
import FietsOfOv.Notify.Worker
import FietsOfOv.Otp
import FietsOfOv.PlanCache
import FietsOfOv.PlanRequests
import FietsOfOv.Planner
import FietsOfOv.Rain
import FietsOfOv.RainFeed
import FietsOfOv.RainRequests
import FietsOfOv.Raising
import FietsOfOv.Ranking
import FietsOfOv.Scoring
import FietsOfOv.SharedMarks
import FietsOfOv.Snap
import FietsOfOv.SnapFallback
import FietsOfOv.Stops
import FietsOfOv.StopsPipeline
import FietsOfOv.TripAlerts
import FietsOfOv.TripRequests
