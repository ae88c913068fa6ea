import OpenvasTool.Posix.Regexec
import OpenvasTool.Posix.CString
import OpenvasTool.Support.Comparator
import OpenvasTool.Support.Runs
import OpenvasTool.LList
import OpenvasTool.Base
import OpenvasTool.TaskOpenvas
import OpenvasTool.Support.Xml
import OpenvasTool.Records
import OpenvasTool.Gvm.Data
import OpenvasTool.Gvm.Env
import OpenvasTool.Gvm.Requests
import OpenvasTool.Gvm.Answers
import OpenvasTool.CommMisc
import OpenvasTool.Tokens
import OpenvasTool.Gvm.Store
import OpenvasTool.Gvm.Handlers
import OpenvasTool.Gvm.Daemon
import OpenvasTool.Gvm.Indexes
import OpenvasTool.Gvm.Steps
import OpenvasTool.Gvm.Boot
import OpenvasTool.Gvm.Consistency
import OpenvasTool.Gvm.Checks
import OpenvasTool.Gvm.Files
import OpenvasTool.Gvm.CheckState
import OpenvasTool.Gvm.Reports
import OpenvasTool.Gvm.Busy
import OpenvasTool.Gvm.Creation
import OpenvasTool.Alphabets
import OpenvasTool.Gvm.TaskFile
import OpenvasTool.Gvm.Schedule
import OpenvasTool.Gvm.Results
import OpenvasTool.Gvm.Download
import OpenvasTool.Index
import OpenvasTool.Support.Processes
import OpenvasTool.Support.Split
import OpenvasTool.Hydra.Uuid
import OpenvasTool.Hydra.Data
import OpenvasTool.Hydra.Cron
import OpenvasTool.Hydra.Store
import OpenvasTool.Hydra.Daemon
import OpenvasTool.Hydra.Indexes
import OpenvasTool.Hydra.Steps
import OpenvasTool.Hydra.Pids
import OpenvasTool.Hydra.Overlap
import OpenvasTool.Hydra.ChildExit
import OpenvasTool.Identity
import OpenvasTool.Hydra.TaskFile
import OpenvasTool.Messages
import OpenvasTool.FileLimit
import OpenvasTool.Gvm.Commands
import OpenvasTool.Client
import OpenvasTool.Hosts
import OpenvasTool.Agreement
import OpenvasTool.Hydra.CmdLine
import OpenvasTool.Hydra.Services
import OpenvasTool.Hydra.DayLists
import OpenvasTool.Hydra.MonthDays
import OpenvasTool.Hydra.Creation
import OpenvasTool.Hydra.CronWindow
import OpenvasTool.Hydra.CronStart
import OpenvasTool.ScheduleBuilders
import OpenvasTool.Loading
import OpenvasTool.FailedDelete
import OpenvasTool.Php.Results
import OpenvasTool.Php.Tasks
import OpenvasTool.Gvm.Restart
import OpenvasTool.WholeRecords
import OpenvasTool.ListSetCells
import OpenvasTool.QueueRuns
import OpenvasTool.WordLists
import OpenvasTool.Gvmd.Configs
import OpenvasTool.Zones
import OpenvasTool.RequestIds
import OpenvasTool.MessageLoop
import OpenvasTool.Posix.FileTree
import OpenvasTool.DeleteDir
import OpenvasTool.Php.Catalogue
import OpenvasTool.Php.ScanConfigs
import OpenvasTool.KbDaemon
import OpenvasTool.RestartRuns
import OpenvasTool.Gvmd.Union
import OpenvasTool.HydraLife
import OpenvasTool.PageRuns
