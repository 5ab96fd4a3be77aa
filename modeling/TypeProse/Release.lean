/-!
# Release

What the program says about itself.
-/

namespace TypeProse.Release

/-- The name under which the program is run. -/
def program : String :=
  "yardtypes"

/-- The version number. -/
def version : String :=
  "0.1.0"

/-- Who looks after the program. -/
def maintainer : String :=
  "xwest"

/-- The terms under which the program may be used. -/
def terms : String :=
  "MIT"

/-- The line that tells the version. -/
def versionLine : String :=
  program ++ ", version " ++ version

end TypeProse.Release
