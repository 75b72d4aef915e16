import NaiveBTSniffing.Launcher.Deadlock
import NaiveBTSniffing.Launcher.Snapshot
import NaiveBTSniffing.Launcher.Moves
import NaiveBTSniffing.Launcher.ConnectAttempts
import NaiveBTSniffing.Launcher.GattLog
import NaiveBTSniffing.Launcher.PrintDevice
import NaiveBTSniffing.Launcher.LogReader
import NaiveBTSniffing.Launcher.DeviceNames
import NaiveBTSniffing.Launcher.LineFaults
import NaiveBTSniffing.Launcher.LastLines
import NaiveBTSniffing.Launcher.SharedAttempts
import NaiveBTSniffing.Launcher.Exclusive
import NaiveBTSniffing.Launcher.Refill
import NaiveBTSniffing.Launcher.Wakeups
import NaiveBTSniffing.Launcher.Counters
import NaiveBTSniffing.Launcher.Settling
import NaiveBTSniffing.Launcher.BothPrints
import NaiveBTSniffing.Launcher.ToolThreads
import NaiveBTSniffing.Launcher.Reselections
import NaiveBTSniffing.Library.Paging
import NaiveBTSniffing.Gatttool.Codec
import NaiveBTSniffing.Gatttool.AttributeTable
import NaiveBTSniffing.Gatttool.LongRead
import NaiveBTSniffing.Gatttool.TableServer
import NaiveBTSniffing.Gatttool.CompleteLog
import NaiveBTSniffing.Gatttool.LostConnection
import NaiveBTSniffing.Gatttool.ReadOrder
import NaiveBTSniffing.Gatttool.LastHandle
import NaiveBTSniffing.Gatttool.ExitStatus
import NaiveBTSniffing.Gatttool.ReadTable
import NaiveBTSniffing.Gatttool.DescriptorList
import NaiveBTSniffing.Analysis.ImportRecords
import NaiveBTSniffing.Analysis.RefusedLines
import NaiveBTSniffing.Library.UniqueKey
import NaiveBTSniffing.Analysis.GattInsert
import NaiveBTSniffing.Analysis.ImportedTable
import NaiveBTSniffing.Gps.LatLong
import NaiveBTSniffing.Gps.Positions
import NaiveBTSniffing.Analysis.OuiSearch
import NaiveBTSniffing.Analysis.CompanyName
import NaiveBTSniffing.Analysis.Fingerprint
import NaiveBTSniffing.Analysis.FillScripts
import NaiveBTSniffing.Analysis.GattInfo
import NaiveBTSniffing.Analysis.Report
import NaiveBTSniffing.Analysis.Search
import NaiveBTSniffing.Analysis.Stats
import NaiveBTSniffing.Analysis.UuidNames
import NaiveBTSniffing.Analysis.RegexSearch
import NaiveBTSniffing.Analysis.UuidSearch
import NaiveBTSniffing.Analysis.CompanySearch
import NaiveBTSniffing.Analysis.SearchedReports
