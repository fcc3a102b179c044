import DisplayBuffers.Simulation.Rehearsal
import DisplayBuffers.Proofs.StorageProtocol
import DisplayBuffers.Proofs.Descriptors
import DisplayBuffers.Proofs.MappedLength
import DisplayBuffers.Proofs.RenderLoop
import DisplayBuffers.Proofs.History
import DisplayBuffers.Proofs.Whereabouts
import DisplayBuffers.Proofs.Lineage
import DisplayBuffers.Proofs.LockLedger
import DisplayBuffers.Proofs.Outlines
import DisplayBuffers.Proofs.FrontResolution
import DisplayBuffers.Proofs.MappingCalls
import DisplayBuffers.Proofs.CallsAtTarget
import DisplayBuffers.Proofs.MappingCount
import DisplayBuffers.Proofs.SharedMapping
import DisplayBuffers.Proofs.ByteArray
import DisplayBuffers.Proofs.MemoryFrame
import DisplayBuffers.Proofs.Contents
import DisplayBuffers.Proofs.Effects
import DisplayBuffers.Proofs.CallLog
import DisplayBuffers.Proofs.Creation
import DisplayBuffers.Proofs.DriverAnswers
import DisplayBuffers.Proofs.DriverRecord
import DisplayBuffers.Proofs.Reporting
import DisplayBuffers.Proofs.Attribution
import DisplayBuffers.Proofs.InvalidInput
import DisplayBuffers.Proofs.ErrorClassification
import DisplayBuffers.Proofs.Borrowed
import DisplayBuffers.Proofs.FailedOperations
import DisplayBuffers.Proofs.Construction
import DisplayBuffers.Proofs.FormatSpelling
import DisplayBuffers.Proofs.Isolation
import DisplayBuffers.Proofs.Holders
import DisplayBuffers.Proofs.LettingGo
import DisplayBuffers.Proofs.DeviceLifetime
import DisplayBuffers.Proofs.Transcript
import DisplayBuffers.Proofs.NodeLifetime
import DisplayBuffers.Proofs.CallProtocol
import DisplayBuffers.Proofs.FailedMapping
import DisplayBuffers.Proofs.KernelDiscipline
import DisplayBuffers.Proofs.PlaneImport
import DisplayBuffers.Proofs.Descriptions
import DisplayBuffers.Proofs.SurfaceContents
import DisplayBuffers.Proofs.StrictExecution
import DisplayBuffers.Proofs.StrictRuns
import DisplayBuffers.Proofs.RowsFit
import DisplayBuffers.Proofs.Departures
import DisplayBuffers.Proofs.Destruction
import DisplayBuffers.Proofs.Warnings
import DisplayBuffers.Proofs.ExportOnDemand
import DisplayBuffers.Proofs.Relabelling
import DisplayBuffers.Proofs.Renaming
import DisplayBuffers.Proofs.Mentions
import DisplayBuffers.Proofs.Twins
import DisplayBuffers.Proofs.ImportAgreement
import DisplayBuffers.Proofs.ScopedMapping
import DisplayBuffers.Proofs.AcceptedLayouts
