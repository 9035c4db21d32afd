import DriveHealth.Database.Source
/-!
The release of the library and of programs that use it, and what they say about themselves.
-/

namespace DriveHealth.Release

def version : Text := "7.5"

def date : Text := "2025-04-30"

def host : Text := "Linux-x86_64 GNU 12.2.0"

def build : Text := "(local build)"

def banner (program : Text) : Text :=
  program ++ " " ++ version ++ " " ++ date ++ " [" ++ host ++ "] " ++ build ++ "\n" ++
    "Copyright (C) 2002-25, Bruce Allen, Christian Franke, www.smartmontools.org\n"

/-- The banner with the conditions of use and the details of the release. -/
def details (program : Text) : Text :=
  banner program ++ "\n" ++
    program ++ " comes with ABSOLUTELY NO WARRANTY. This is free\n" ++
    "software, and you are welcome to redistribute it under\n" ++
    "the terms of the GNU General Public License; either\n" ++
    "version 2, or (at your option) any later version.\n" ++
    "See https://www.gnu.org for further details.\n" ++
    "\n" ++
    "smartattr release " ++ version ++ " dated " ++ date ++ "\n" ++
    "smartattr build host: " ++ host ++ "\n" ++
    "smartattr drive database directory: " ++ Database.installedDirectory ++ "\n"

end DriveHealth.Release
