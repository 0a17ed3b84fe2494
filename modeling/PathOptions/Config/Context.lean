import PathOptions.Config.Cache
import PathOptions.Config.Profiles
import PathOptions.Config.Settings
import PathOptions.Context
/-!
From a configuration to the context in which options are chosen: what is asked for from outside
counts more than the settings, and these more than what holds by default.
-/

namespace PathOptions.Config

/-- What is asked for from outside; nothing is asked for by default. -/
structure Overrides where
  matcher : Option Value := none
  sep : Option Value := none
  /-- A home directory, or that there is none. -/
  home : Option (Option Text) := none
  locked : Option (List Text) := none
  useFileConfiguration : Option Bool := none
  configurationDirectories : Option (List Text) := none
  maxDepth : Option Int := none
  deriving Repr

/-- The separator of paths unless something else is asked for. -/
def defaultSeparator : Text := ['/']

/-- The context that a configuration gives. Of several faults one in the settings is reported
before one in the profiles, and a matcher that does not exist comes last. -/
def context (wildcards : Glob.Wildcards) (fs : FileSystem) (environment : Text → Option Text)
    (overrides : Overrides) (configuration : Configuration) : Except Failure Context := do
  let settings ← (Settings.read configuration).mapError .content
  let profiles ← (readProfiles configuration).mapError .content
  let name := overrides.matcher.getD (.text (settings.matcher.getD Glob.Dialect.builtin.name))
  let sep := overrides.sep.getD (.text ((settings.sep.map ([·])).getD defaultSeparator))
  let matcher ← (Glob.Matcher.select wildcards name sep).mapError .matcher
  return {
    profiles
    home := overrides.home.getD (settings.home <|> Path.home? environment)
    matcher
    locked := (overrides.locked <|> settings.locked).getD []
    useFileConfiguration :=
      (overrides.useFileConfiguration <|> settings.useFileConfiguration).getD false
    configurationDirectories :=
      (overrides.configurationDirectories <|> settings.configurationDirectories).getD []
    maxDepth := overrides.maxDepth.getD Context.defaultMaxDepth
    realPath := none
    pathExists := fs.pathExists
    isDirectory := fs.isDirectory }

end PathOptions.Config
