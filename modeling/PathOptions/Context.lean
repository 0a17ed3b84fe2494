import PathOptions.Glob.Matcher
import PathOptions.Path
import PathOptions.Profile
/-!
All that the choice of options for a file depends on, in one value: the profiles, the settings and
what is known of the file system.
-/

namespace PathOptions

/-- The surroundings in which options are chosen. -/
structure Context where
  profiles : List Profile
  home : Option Text
  matcher : Glob.Matcher
  /-- Options that no profile may set. -/
  locked : List Text
  /-- Whether configuration files beside a file keep profiles away from it. -/
  useFileConfiguration : Bool
  configurationDirectories : List Text
  /-- How many inclusions may lie between a profile and another one that it includes. -/
  maxDepth : Int
  /-- Resolves a path before it is compared; without it, paths are compared as they are. -/
  realPath : Option (Text → Option Text)
  pathExists : Text → Bool
  isDirectory : Text → Bool

namespace Context

/-- The depth of inclusions that is allowed unless something else is asked for. -/
def defaultMaxDepth : Int := 20

def sep (ctx : Context) : Text := [ctx.matcher.sep]

/-- A path below a directory, as the context compares paths. -/
def below? (ctx : Context) (path directory : Text) : Option Text :=
  match ctx.realPath with
  | none => Path.below? ctx.sep path directory
  | some realPath => Path.resolvedBelow? ctx.sep realPath path directory

end Context

end PathOptions
