import GridSort.Kernel.Probe
import GridSort.Sample
import GridSort.Sort.Call
import GridSort.Proofs.Memory.Writes
import GridSort.Proofs.Program.Footprint
import GridSort.Proofs.Pairs.Contents
import GridSort.Proofs.Kernel.Groups
import GridSort.Proofs.Merge.Search
import GridSort.Proofs.Merge.Arranged
import GridSort.Proofs.Merge.Heads
import GridSort.Proofs.Merge.Pass
import GridSort.Proofs.Merge.Ranks
import GridSort.Proofs.Merge.Doublings
import GridSort.Proofs.Merge.Renaming
import GridSort.Proofs.Merge.TileOrder
import GridSort.Proofs.Kernel.Fills
import GridSort.Proofs.Kernel.Copy
import GridSort.Proofs.Kernel.RunMerge
import GridSort.Proofs.Kernel.TileSort
import GridSort.Proofs.Host.Steps
import GridSort.Proofs.Host.Stages
import GridSort.Proofs.Host.Disturbance
import GridSort.Proofs.Host.Rest
import GridSort.Proofs.Sort.Execute
import GridSort.Proofs.Host.Endings
import GridSort.Proofs.Sort.FailFast
import GridSort.Proofs.Sort.Arrangement
import GridSort.Proofs.Sort.Pipeline
import GridSort.Proofs.Sort.Storage
import GridSort.Proofs.Sort.Run
import GridSort.Proofs.Sort.Stable
import GridSort.Proofs.Sort.Gather
import GridSort.Proofs.Sort.GroupOrder
import GridSort.Proofs.Sort.Isolation
import GridSort.Proofs.Sort.Calls
import GridSort.Proofs.Host.Sites
import GridSort.Proofs.Host.History
import GridSort.Proofs.Program.Conduct
import GridSort.Proofs.Kernel.Conduct
import GridSort.Proofs.Sort.Conduct
import GridSort.Proofs.Sort.Status
import GridSort.Proofs.Host.Invariants
import GridSort.Proofs.Kernel.Confinement
import GridSort.Proofs.Sort.Frame
import GridSort.Proofs.Stream.Standing
import GridSort.Proofs.Host.Departure
import GridSort.Proofs.Stream.Additions
import GridSort.Proofs.Sort.InPlace
import GridSort.Proofs.Sort.Unhealthy
import GridSort.Proofs.Sort.Passes
import GridSort.Proofs.Sort.Surroundings
import GridSort.Proofs.Sort.Schedule
import GridSort.Proofs.Host.Waiting
import GridSort.Proofs.Kernel.Launches
import GridSort.Proofs.Merge.Sequential
import GridSort.Proofs.Kernel.MergeLaunch
import GridSort.Proofs.Kernel.SortLaunch
import GridSort.Proofs.Host.Matching
import GridSort.Proofs.Sort.Watching
import GridSort.Proofs.Merge.Reflection
import GridSort.Proofs.Sort.Ready
import GridSort.Proofs.Program.Refusal
import GridSort.Proofs.Merge.Refusal
import GridSort.Proofs.Kernel.Refusal
import GridSort.Proofs.Sort.Refusal
import GridSort.Proofs.Element.Comparison
import GridSort.Proofs.Merge.Opposite
import GridSort.Proofs.Memory.Views
import GridSort.Proofs.Sort.Scratch
import GridSort.Release
import GridSort.Proofs.Program.Avoidance
import GridSort.Proofs.Host.Events
import GridSort.Proofs.Host.Transfers
import GridSort.Proofs.Sample.Seeds
import GridSort.Proofs.Sample.Swaps
import GridSort.Proofs.Program.Inspection
import GridSort.Proofs.Merge.Diagonal
import GridSort.Proofs.Merge.Landing
import GridSort.Proofs.Merge.Rounds
import GridSort.Proofs.Merge.Counts
import GridSort.Proofs.Kernel.Overflow
import GridSort.Proofs.Sort.Overflow
import GridSort.Proofs.Sort.Reach
import GridSort.Proofs.Sort.NonStrict
import GridSort.Proofs.Sort.Monotone
import GridSort.Proofs.Sort.Descending
