import PathShim.UnixPath
import PathShim.Effects
import PathShim.Host
import PathShim.Bind
import PathShim.Bind.Forward
import PathShim.Bind.Reverse
import PathShim.Linux.Dispatch
import PathShim.Linux.Reply
import PathShim.Linux.ExecFrame
import PathShim.Linux.StartOnce
import PathShim.Inherit
import PathShim.Linux.Continue
import PathShim.Linux.Cwd
import PathShim.Bind.Symlinks
import PathShim.Linux.Seccomp
import PathShim.Linux.Pagination
import PathShim.Linux.Checked
import PathShim.Linux.Composition
import PathShim.Linux.Transparent
import PathShim.Linux.FdOnly
import PathShim.Linux.Descendants
import PathShim.Linux.Lifecycle
import PathShim.Linux.Supervise
import PathShim.Linux.Registers
import PathShim.Bind.Construction
import PathShim.Linux.Rename
import PathShim.Linux.Moving
import PathShim.Linux.Listing
import PathShim.Linux.Retry
import PathShim.Linux.FailedOpen
import PathShim.Linux.Offsets
import PathShim.Linux.Reopened
import PathShim.Linux.OpenHow
import PathShim.Linux.Umask
import PathShim.Linux.Rewriting
import PathShim.Linux.Structures
import PathShim.Normalization
import PathShim.Spelling
import PathShim.InitialCwd
import PathShim.Linux.Established
import PathShim.Linux.Turns
import PathShim.Linux.Interrupted
import PathShim.Linux.Located
import PathShim.Main
