import AbsPlatform.ABS.Read
import AbsPlatform.Android.SendSync
import AbsPlatform.AppCtrl.Apk
import AbsPlatform.AppCtrl.Archive
import AbsPlatform.AppCtrl.Compiled
import AbsPlatform.AppCtrl.Inflate
import AbsPlatform.AppCtrl.Labels
import AbsPlatform.AppCtrl.Launch
import AbsPlatform.AppCtrl.Manifest
import AbsPlatform.Arduino.Answers
import AbsPlatform.Arduino.Assets
import AbsPlatform.Arduino.Decoding
import AbsPlatform.Arduino.Execute
import AbsPlatform.Arduino.Hdlc
import AbsPlatform.Arduino.Loop
import AbsPlatform.Arduino.Periodic
import AbsPlatform.Arduino.Radio
import AbsPlatform.Arduino.RadioChanges
import AbsPlatform.Arduino.RadioTiming
import AbsPlatform.Arduino.Reception
import AbsPlatform.Include
import AbsPlatform.Json.Complete
import AbsPlatform.Json.Grammar
import AbsPlatform.Json.Minify
import AbsPlatform.Json.Numbers
import AbsPlatform.Json.Parse
import AbsPlatform.Json.Print
import AbsPlatform.Json.Printed
import AbsPlatform.Json.Safety
import AbsPlatform.Json.Strings
import AbsPlatform.Lib.AnswerRouting
import AbsPlatform.Lib.ByteReader
import AbsPlatform.Lib.CheckedReads
import AbsPlatform.Lib.Decimal
import AbsPlatform.Lib.DoublyLinked
import AbsPlatform.Lib.Emitter
import AbsPlatform.Lib.ExchangeSort
import AbsPlatform.Lib.GrowingBuffer
import AbsPlatform.Lib.LittleEndian
import AbsPlatform.Lib.LockProgram
import AbsPlatform.Lib.Locks
import AbsPlatform.Lib.Odometer
import AbsPlatform.Lib.Placed
import AbsPlatform.Lib.PriorityList
import AbsPlatform.Lib.Region
import AbsPlatform.Lib.RegisterFile
import AbsPlatform.Lib.Related
import AbsPlatform.Lib.Runs
import AbsPlatform.Lib.Scanner
import AbsPlatform.Lib.Separated
import AbsPlatform.Lib.SinglyLinked
import AbsPlatform.LibSDB.CallbackTable
import AbsPlatform.LibSDB.Callbacks
import AbsPlatform.LibSDB.Connect
import AbsPlatform.LibSDB.Exchange
import AbsPlatform.LibSDB.FailedSend
import AbsPlatform.LibSDB.LockBalance
import AbsPlatform.LibSDB.Pending
import AbsPlatform.LibSDB.PendingList
import AbsPlatform.LibSDB.Wakeups
import AbsPlatform.MCS.Codec
import AbsPlatform.MCS.CommandSet
import AbsPlatform.MCS.Frame
import AbsPlatform.MCS.Packet
import AbsPlatform.MCS.RoundTrip
import AbsPlatform.MCS.Validation
import AbsPlatform.MCSG.CommandSets
import AbsPlatform.MCSG.Commands
import AbsPlatform.MCSG.Generate
import AbsPlatform.MCSG.Identity
import AbsPlatform.MCSG.Java
import AbsPlatform.MCSG.MessageTable
import AbsPlatform.MCSG.Numbering
import AbsPlatform.MCSG.PayloadPath
import AbsPlatform.MCSG.StatePath
import AbsPlatform.MCSG.Translator
import AbsPlatform.SDB.Admission
import AbsPlatform.SDB.Answers
import AbsPlatform.SDB.Bus
import AbsPlatform.SDB.Deadlock
import AbsPlatform.SDB.Delivery
import AbsPlatform.SDB.Effects
import AbsPlatform.SDB.Handoff
import AbsPlatform.SDB.Handshake
import AbsPlatform.SDB.HandshakeGrammar
import AbsPlatform.SDB.Mailbox
import AbsPlatform.SDB.Module
import AbsPlatform.SDB.Monitor
import AbsPlatform.SDB.Notify
import AbsPlatform.SDB.Permissions
import AbsPlatform.SDB.PopBlock
import AbsPlatform.SDB.Qos
import AbsPlatform.SDB.QosBuckets
import AbsPlatform.SDB.QosDump
import AbsPlatform.SDB.Queue
import AbsPlatform.SDB.QueueRefinement
import AbsPlatform.SDB.RegionSize
import AbsPlatform.SDB.Registry
import AbsPlatform.SDB.Routing
import AbsPlatform.SDB.States
import AbsPlatform.SDB.Threads
import AbsPlatform.SDB.Turn
import AbsPlatform.SDB.Usb
import AbsPlatform.SDB.UsbFraming
import AbsPlatform.SDB.UsbThreads
import AbsPlatform.SDB.WakeUp
import AbsPlatform.Scheduler.Combinations
import AbsPlatform.Scheduler.Duplicates
import AbsPlatform.Scheduler.Local
import AbsPlatform.Scheduler.Search
import AbsPlatform.Scheduler.Shed
