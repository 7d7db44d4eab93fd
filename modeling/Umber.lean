import Umber.Incr.BudgetRuns
import Umber.Incr.ExternalDelta
import Umber.Incr.SuspensionRuns
import Umber.Input.Rebind
import Umber.Lib.Except
import Umber.Dvi.Advance
import Umber.State.ScopingProperties
import Umber.State.RecordedProperties
import Umber.State.RollbackExactness
import Umber.State.FrozenLookupDictionary
import Umber.Typeset.PlanProperties
import Umber.Vfs.LocateProperties
import Umber.Command.DelimitedArgument
import Umber.Command.StackRuns
import Umber.Reachability.StoreRuns
import Umber.Biber.SortingProperties
import Umber.Bib.RawReader
import Umber.Bib.StyleCompiler
import Umber.Classic.FormatProperties
import Umber.Classic.ControlProperties
import Umber.Biber.GraphProperties
import Umber.Bib.StyleAcceptance
import Umber.Typeset.VerticalBreakProperties
import Umber.Typeset.Alignment
import Umber.Typeset.Badness
import Umber.Typeset.Expansion
import Umber.Vfs.RetryProperties
import Umber.Vfs.SnapshotProperties
import Umber.Boxes.UnsaveRunProperties
import Umber.Editor.SessionProperties
import Umber.Arith.ConversionProperties
import Umber.Fonts.Derived
import Umber.Page.PackingProperties
import Umber.Page.BuilderPenalties
import Umber.Page.BestBreak
import Umber.Page.Splitting
import Umber.Command.ExpressionTermination
import Umber.Command.JournalMarkRuns
