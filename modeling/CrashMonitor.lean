import CrashMonitor.Lib.MachineInt
import CrashMonitor.Watchdog.State
import CrashMonitor.EventLoop.Machine
import CrashMonitor.Watchdog.Trace
import CrashMonitor.EventLoop.AnrBound
import CrashMonitor.Lib.Bytes
import CrashMonitor.Lib.Interleave
import CrashMonitor.Lib.SharedMemory
import CrashMonitor.Lib.Seqlock
import CrashMonitor.Lib.Utf8
import CrashMonitor.Shm.Layout
import CrashMonitor.Shm.Producer
import CrashMonitor.Shm.Publication
import CrashMonitor.Lib.Fallible
import CrashMonitor.Shm.Snapshot
import CrashMonitor.Shm.Copy
import CrashMonitor.Shm.Sanitize
import CrashMonitor.Shm.Suspended
import CrashMonitor.Shm.Noninterference
import CrashMonitor.Lib.RingLog
import CrashMonitor.Shm.Journal
import CrashMonitor.Shm.Sequential
import CrashMonitor.Shm.RoundTrip
import CrashMonitor.Shm.BreadcrumbOrder
import CrashMonitor.Shm.Texts
import CrashMonitor.Lib.Json
import CrashMonitor.Lib.Decode
import CrashMonitor.Privacy.Sanitizer
import CrashMonitor.Privacy.Completeness
import CrashMonitor.Shm.CounterWrap
import CrashMonitor.EventLoop.ReplyProtocol
import CrashMonitor.Lib.Trace
import CrashMonitor.Capture.TaskControl
import CrashMonitor.Capture.Isolation
import CrashMonitor.Capture.Worker
import CrashMonitor.Capture.Balance
import CrashMonitor.Lib.SortedMap
import CrashMonitor.Lib.Attempt
import CrashMonitor.Lib.History
import CrashMonitor.Store.Names
import CrashMonitor.Store.Manifest
import CrashMonitor.Lib.Serial
import CrashMonitor.Store.Codec
import CrashMonitor.Store.State
import CrashMonitor.Store.Paths
import CrashMonitor.Store.PublishScope
import CrashMonitor.Store.Transaction
import CrashMonitor.Store.Recovery
import CrashMonitor.Store.Retention
import CrashMonitor.Lib.Confine
import CrashMonitor.Store.SessionRecorder
import CrashMonitor.Store.RetentionScope
import CrashMonitor.Lib.SlidingWindow
import CrashMonitor.Lib.CompactText
import CrashMonitor.Filters.RateState
import CrashMonitor.Filters.RateLimiter
import CrashMonitor.Filters.RatePolicy
import CrashMonitor.EventLoop.Source
import CrashMonitor.Lib.Alone
import CrashMonitor.Lib.Slice
import CrashMonitor.Exceptions.Message
import CrashMonitor.Exceptions.Rights
import CrashMonitor.Exceptions.Listener
import CrashMonitor.Pipeline.Plugin
import CrashMonitor.Pipeline.Finalize
import CrashMonitor.Pipeline.Registry
import CrashMonitor.Pipeline.Course
import CrashMonitor.Pipeline.Gate
import CrashMonitor.Store.Publication
import CrashMonitor.Pipeline.FailOpen
import CrashMonitor.Pipeline.DuplicateDetector
import CrashMonitor.Pipeline.Suppression
import CrashMonitor.Pipeline.FatalFinalization
import CrashMonitor.Shm.ScreenshotSelection
import CrashMonitor.Lib.Expand
import CrashMonitor.Lib.Lines
import CrashMonitor.Session.Files
import CrashMonitor.Session.Record
import CrashMonitor.Session.Lock
import CrashMonitor.Session.Log
import CrashMonitor.Lib.Base64
import CrashMonitor.Report.Document
import CrashMonitor.Report.Threads
import CrashMonitor.Report.Summary
import CrashMonitor.Report.Portable
import CrashMonitor.Report.Archive
import CrashMonitor.Lib.Precedence
import CrashMonitor.Pipeline.CycleSearch
import CrashMonitor.Pipeline.Validation
import CrashMonitor.Pipeline.Order
import CrashMonitor.Pipeline.Enablement
import CrashMonitor.Lib.Trim
import CrashMonitor.Store.RetentionPolicy
import CrashMonitor.Store.RetentionProgress
import CrashMonitor.Store.RecoveryScope
import CrashMonitor.Store.Acceptance
import CrashMonitor.Lib.FileTree
import CrashMonitor.Files.Private
import CrashMonitor.Files.Publish
import CrashMonitor.Staging.State
import CrashMonitor.Files.Attachments
import CrashMonitor.Staging.Copy
import CrashMonitor.Staging.Archiver
import CrashMonitor.Staging.Attachments
import CrashMonitor.Staging.Steps
import CrashMonitor.Staging.References
import CrashMonitor.Report.Diagnostics
import CrashMonitor.Report.RenamedArchive
import CrashMonitor.Privacy.JsonWrites
import CrashMonitor.Symbols.Attribution
import CrashMonitor.Process.ChildOutput
import CrashMonitor.Process.StreamCapture
import CrashMonitor.Threads.Backtrace
import CrashMonitor.Pipeline.DuplicateWindow
import CrashMonitor.Memory.Regions
import CrashMonitor.Symbols.Selection
import CrashMonitor.Exceptions.Exact
import CrashMonitor.Store.Served
