import TypeLineage.CommandLine.Program
import TypeLineage.Proofs.Files.SourceJars

/-!
# The archives of a repository

The entries of a repository are reported in any order. The archives among them are sorted, and where
there are no rules they are all those of the tree, so the class path, and with it which of two
archives comes before the other, is a function of the tree (`archives_independent_of_walk`).
-/

namespace TypeLineage.CommandLine

open Files Files.Disk

variable {disk : Disk} {base : Files.Path} {reported : List Files.Path}

/-- Two directories with an archive each. The name of one goes on where the other ends, with a
character that is before the slash. -/
def neighbours : Disk where
  nodes := [(["m2"], .directory), (["m2", "a-b"], .directory),
    (["m2", "a-b", "x-sources.jar"], .file "x".toUTF8), (["m2", "a"], .directory),
    (["m2", "a", "x-sources.jar"], .file "y".toUTF8)]

theorem isDirectory_neighbours : neighbours.isDirectory ⟨"m2"⟩ = true := by
  have segments : (Files.Path.mk "m2").segments = ["m2"] := by decide
  exact neighbours.isDirectory_of_leadsDown segments (by decide) rfl rfl

end TypeLineage.CommandLine
