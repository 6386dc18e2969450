import Esp32Firmware.ChargeManager.MinimumCurrents
import Esp32Firmware.ChargeManager.LimitAccounting
import Esp32Firmware.ChargeManager.WakeUpThreshold
import Esp32Firmware.ChargeManager.DecisionAgreement
import Esp32Firmware.ChargeManager.IndexArray
import Esp32Firmware.ChargeTracker.ChargeLogSendRun
import Esp32Firmware.Heating.OutputSafety
import Esp32Firmware.Heating.PlanAgreement
import Esp32Firmware.DayAheadPrices.Calendar
import Esp32Firmware.Users.UserIds
import Esp32Firmware.ChargeTracker.RecordCounters
import Esp32Firmware.Api.Commands
import Esp32Firmware.Api.StateUpdates
import Esp32Firmware.Api.WriteConfig
import Esp32Firmware.Automation.RuleRuns
import Esp32Firmware.BatteryControl.Refinement
import Esp32Firmware.ChargeLimits.LimitRuns
import Esp32Firmware.CmNetworking.ManagerAddress
import Esp32Firmware.ConfigMigrations.Interruptions
import Esp32Firmware.Eebus.BindingOwners
import Esp32Firmware.Eebus.HandshakeProgress
import Esp32Firmware.Eebus.LimitStates
import Esp32Firmware.EmPhaseSwitcher.SwitchingSafety
import Esp32Firmware.Iso15118.SlacNonInterference
import Esp32Firmware.Iso15118.V2gTransport
import Esp32Firmware.RemoteAccess.Base58
import Esp32Firmware.RemoteAccess.Commands
import Esp32Firmware.RemoteAccess.Registration
import Esp32Firmware.RemoteAccess.Revocation
import Esp32Firmware.RemoteAccess.Synchronisation
import Esp32Firmware.PowerManager.ExpirationTimestamps
import Esp32Firmware.TaskScheduler.CancelResults
import Esp32Firmware.SunSpec.ResolverResult
import Esp32Firmware.Eebus.BrokerWrites
import Esp32Firmware.DayAheadPrices.CacheTransparency
import Esp32Firmware.ChargeTracker.LastCharges
import Esp32Firmware.ChargeTracker.CsvChargeLog
import Esp32Firmware.ChargeTracker.Windows1252
import Esp32Firmware.TaskScheduler.ExecutionOrder
import Esp32Firmware.Eco.ParkTime
import Esp32Firmware.Api.DebugReport
import Esp32Firmware.Api.LengthEstimate
import Esp32Firmware.Meters.VirtualValues
import Esp32Firmware.Tools.Ringbuffer
import Esp32Firmware.EventLog.WholeLines
import Esp32Firmware.Tools.ArenaRuns
import Esp32Firmware.ModbusTcp.TagInjection
import Esp32Firmware.ModbusTcp.WriteOutcomes
import Esp32Firmware.Eebus.Reassembly
import Esp32Firmware.Eebus.IsoTimes
import Esp32Firmware.Automation.Cron
import Esp32Firmware.EmEnergyAnalysis.DailyStatistics
import Esp32Firmware.ChargeManager.PhaseSwitching
