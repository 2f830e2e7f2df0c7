import SystemsManager.Autopilot.BudgetBound
import SystemsManager.Jobs.FinishOnce
import SystemsManager.Jobs.CancelSignal
import SystemsManager.Tools.Overtaking
import SystemsManager.Power.Holds
import SystemsManager.Power.RateCap
import SystemsManager.Metrics.Fifo
import SystemsManager.Metrics.Statistics
import SystemsManager.Metrics.Budget
import SystemsManager.Energy.Split
import SystemsManager.Energy.ServerTokens
import SystemsManager.Alarms.Edits
import SystemsManager.Alarms.Resolution
import SystemsManager.Alarms.Retirement
import SystemsManager.Alarms.SnapshotWorker
import SystemsManager.Alarms.RateLimit
import SystemsManager.Alarms.AlertStorage
import SystemsManager.Alarms.ConfigStorage
import SystemsManager.Alarms.Hysteresis
import SystemsManager.Alarms.IgnoreWindows
import SystemsManager.Installer.Reorder
import SystemsManager.Forecast.Flapping
import SystemsManager.Forecast.Alerts
import SystemsManager.Forecast.Dismissed
import SystemsManager.Gateway.CountedOnce
import SystemsManager.Autotune.Restarts
import SystemsManager.Users.Guesses
import SystemsManager.Registry.OldFingerprints
import SystemsManager.Autopilot.BlankGrace
import SystemsManager.Registry.FailedSaves
import SystemsManager.Power.Verified
import SystemsManager.Gateway.Ledgers
import SystemsManager.Bench.Fleet
import SystemsManager.Bench.Pins
import SystemsManager.Bench.Nightly
import SystemsManager.Bench.BuildChanges
import SystemsManager.Forecast.Fits
import SystemsManager.Forecast.Cofire
import SystemsManager.Forecast.Slots
import SystemsManager.Autopilot.Touch
import SystemsManager.Autopilot.Routing
import SystemsManager.Autopilot.Accepted
import SystemsManager.Users.Resets
import SystemsManager.Gateway.Relay
import SystemsManager.Tower.AppliedOnce
import SystemsManager.Tower.ApprovedOnce
import SystemsManager.Tower.Turns
import SystemsManager.Alarms.CacheQueries
import SystemsManager.Alarms.KeyValueCache
import SystemsManager.Alarms.Channels
import SystemsManager.Users.Patches
import SystemsManager.Gateway.Candidates
import SystemsManager.Alarms.Flatten
import SystemsManager.Otlp.Collision
import SystemsManager.Otlp.Redaction
import SystemsManager.Installer.Origins
