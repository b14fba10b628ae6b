import BlockStore.Main
import BlockStore.Proofs.Capacity
import BlockStore.Proofs.Clocks
import BlockStore.Proofs.Commands
import BlockStore.Proofs.Confinement
import BlockStore.Proofs.Consistency
import BlockStore.Proofs.Deduplication
import BlockStore.Proofs.Draining
import BlockStore.Proofs.DryRun
import BlockStore.Proofs.Faultless
import BlockStore.Proofs.Files
import BlockStore.Proofs.FormatWrites
import BlockStore.Proofs.FreeList
import BlockStore.Proofs.FreeSlots
import BlockStore.Proofs.Overwriting
import BlockStore.Proofs.Preservation
import BlockStore.Proofs.Recovery
import BlockStore.Proofs.ReferenceCounts
import BlockStore.Proofs.Refinement
import BlockStore.Proofs.Refusal
import BlockStore.Proofs.Remount
import BlockStore.Proofs.Rollback
import BlockStore.Proofs.SharedTable
import BlockStore.Proofs.Usage
import BlockStore.Proofs.Usurpation
import BlockStore.Proofs.WordGeometry
import BlockStore.Workspace
import BlockStore.Proofs.TimestampBytes
import BlockStore.Proofs.Hosting
import BlockStore.Proofs.Deeds
import BlockStore.Proofs.Making
import BlockStore.Proofs.CommandRuns
import BlockStore.Proofs.Layouts
import BlockStore.Proofs.Visits
import BlockStore.Proofs.Repetition
import BlockStore.Proofs.ByteForms
import BlockStore.Proofs.Merging
import BlockStore.Proofs.Definitions
import BlockStore.Proofs.Precedence
import BlockStore.Proofs.Documents
import BlockStore.Config.Save
import BlockStore.Proofs.Saving
import BlockStore.Proofs.KeyText
import BlockStore.Proofs.LastWrites
import BlockStore.Proofs.Cursors
import BlockStore.Proofs.EntryUpdates
import BlockStore.Proofs.TimestampParts
