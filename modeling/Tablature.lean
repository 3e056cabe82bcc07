import Tablature.Main
import Tablature.CommandLine.FileTree
import Tablature.Session
import Tablature.EditorLint
import Tablature.Proofs.Unrolling
import Tablature.Proofs.Turns
import Tablature.Proofs.TempoCascade
import Tablature.Proofs.Indices
import Tablature.Proofs.Capping
import Tablature.Proofs.Trimming
import Tablature.Proofs.Elapsed
import Tablature.Proofs.Lookup
import Tablature.Proofs.Reload
import Tablature.Proofs.AsWritten
import Tablature.Proofs.SectionPreview
import Tablature.Proofs.DefaultProgression
import Tablature.Proofs.Extension
import Tablature.Proofs.PreviewComposition
import Tablature.Proofs.TimingContent
import Tablature.Proofs.Arrangement
import Tablature.Proofs.Traces
import Tablature.Proofs.Repetition
import Tablature.Proofs.Editing
import Tablature.Proofs.StrictTime
import Tablature.Proofs.ColumnSlots
import Tablature.Proofs.UnsetTempo
import Tablature.Proofs.FileTrees
import Tablature.Proofs.FractionalTempo
import Tablature.Proofs.StrumTags
import Tablature.Proofs.AddressText
import Tablature.Proofs.ArgumentGroups
import Tablature.Proofs.EditorText
