import FlatVolume.Device.Lawful
import FlatVolume.Main
import FlatVolume.Volume.Consistent
import FlatVolume.Proofs.Chains
import FlatVolume.Proofs.Rechaining
import FlatVolume.Proofs.Allotment
import FlatVolume.Proofs.Intact
import FlatVolume.Proofs.Contents
import FlatVolume.Proofs.Growth
import FlatVolume.Proofs.Writing
import FlatVolume.Proofs.Calls
import FlatVolume.Proofs.Shortening
import FlatVolume.Proofs.Reading
import FlatVolume.Proofs.Refiling
import FlatVolume.Proofs.Regrowth
import FlatVolume.Proofs.Records
import FlatVolume.Proofs.Flushing
import FlatVolume.Proofs.Operations
import FlatVolume.Proofs.Steps
import FlatVolume.Proofs.Formatted
import FlatVolume.Proofs.Consistency
import FlatVolume.Proofs.Conservation
import FlatVolume.Proofs.FileBytes
import FlatVolume.Proofs.Persistence
import FlatVolume.Proofs.Plain
import FlatVolume.Proofs.View
import FlatVolume.Proofs.Refinement
import FlatVolume.Proofs.Walks
import FlatVolume.Proofs.Prepared
import FlatVolume.Proofs.Truncation
import FlatVolume.Proofs.Landing
import FlatVolume.Proofs.Mooring
import FlatVolume.Proofs.Following
import FlatVolume.Proofs.Readback
import FlatVolume.Proofs.Descriptors
import FlatVolume.Proofs.Observation
import FlatVolume.Proofs.Plans
import FlatVolume.Proofs.Footprints
import FlatVolume.Proofs.Atomicity
import FlatVolume.Proofs.Confinement
import FlatVolume.Proofs.Guarded
import FlatVolume.Proofs.Safety
import FlatVolume.Proofs.Retrying
import FlatVolume.Proofs.Acceptance
import FlatVolume.Proofs.Formatting
import FlatVolume.Proofs.Normalising
import FlatVolume.Proofs.Lockstep
import FlatVolume.Proofs.InStep
import FlatVolume.Proofs.Provenance
import FlatVolume.Proofs.Secrecy
import FlatVolume.Proofs.CutShort
import FlatVolume.Proofs.Placement
import FlatVolume.Proofs.Pieces
import FlatVolume.Proofs.Images
import FlatVolume.Proofs.Commands
import FlatVolume.Proofs.Adding
import FlatVolume.Proofs.Sequences
import FlatVolume.Proofs.Checking
import FlatVolume.Proofs.Recording
import FlatVolume.Proofs.Creating
import FlatVolume.Proofs.Freeing
