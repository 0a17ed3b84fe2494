import PathOptions.Resolve.Lineage
import PathOptions.Resolve.Selection
/-!
The options for a file: nothing for a directory, for a file outside every tree and, on demand, for
a file with a configuration file of its own; otherwise what its parent and the sub-profiles set.
-/

namespace PathOptions.Context

/-- The configuration file for all files beside a path. -/
def directoryConfiguration (ctx : Context) (path : Text) : Text :=
  Path.join ctx.sep (Path.splitLast ctx.sep path).1 "mpv.conf".toList

/-- The configuration files for a path alone: one beside it and one in each configuration
directory. -/
def fileConfigurations (ctx : Context) (path : Text) : List Text :=
  let (dir, name) := Path.splitLast ctx.sep path
  (dir :: ctx.configurationDirectories).map fun place =>
    Path.join ctx.sep place (name ++ ".conf".toList)

/-- Whether a configuration file beside a file, or for it, takes the place of profiles. -/
def hasOwnConfiguration (ctx : Context) (path : Text) : Logged Bool := do
  if ctx.pathExists (ctx.directoryConfiguration path) then
    Logged.tell .directoryConfigured
    return true
  if (ctx.fileConfigurations path).any ctx.pathExists then
    Logged.tell .fileConfigured
    return true
  return false

/-- The paths of which the options for a file depend on what is there. -/
def consulted (ctx : Context) (path workingDirectory : Text) : List Text :=
  let full := Path.join ctx.sep workingDirectory path
  full :: ctx.directoryConfiguration full :: ctx.fileConfigurations full

/-- The options for the file at a path seen from a working directory. -/
def resolve (ctx : Context) (path : Text) (workingDirectory : Text) :
    Logged (Option Resolution) := do
  let full := Path.join ctx.sep workingDirectory path
  if ctx.isDirectory full then
    Logged.tell .directorySkipped
    return none
  match ← Lineage.find ctx full with
  | none =>
    Logged.tell .parentMissing
    return none
  | some ⟨parent, child⟩ =>
    if ctx.useFileConfiguration then
      if ← ctx.hasOwnConfiguration full then return none
    let properties := Property.ofChild ctx.sep parent.name child
    return some (← ctx.applyProfiles parent child properties)

end PathOptions.Context
