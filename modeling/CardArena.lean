import CardArena.Main
import CardArena.Proofs.Conservation
import CardArena.Proofs.Exclusion
import CardArena.Proofs.Faults
import CardArena.Proofs.Integrity
import CardArena.Proofs.Rotation
import CardArena.Proofs.Line
import CardArena.Proofs.Ghosts
import CardArena.Proofs.Depth
import CardArena.Proofs.Waiting
import CardArena.Proofs.Letters
import CardArena.Proofs.Refusals
import CardArena.Proofs.Fate
import CardArena.Proofs.Spared
import CardArena.Proofs.Doom
import CardArena.Proofs.Aftermath
import CardArena.Proofs.Acceptance
import CardArena.Proofs.Chorus
import CardArena.Proofs.Privacy
import CardArena.Proofs.UpToDate
import CardArena.Proofs.Service
import CardArena.Proofs.Seating
import CardArena.Proofs.Silence
import CardArena.Proofs.Defeat
import CardArena.Proofs.Candor
import CardArena.Proofs.Asking
import CardArena.Proofs.Schema
import CardArena.Proofs.Dawn
import CardArena.Proofs.Debt
import CardArena.Proofs.Lifecycle
import CardArena.Proofs.Counting
import CardArena.Proofs.RoundTrip
import CardArena.Proofs.Payment
import CardArena.Proofs.Replaced
import CardArena.Proofs.Forfeit
import CardArena.Proofs.Found
import CardArena.Proofs.Discards
import CardArena.Proofs.Killing
import CardArena.Proofs.Relocation
import CardArena.Proofs.Enrolment
import CardArena.Proofs.Heard
import CardArena.Proofs.Draining
import CardArena.Proofs.Played
