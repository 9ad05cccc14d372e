/-
# The script used when none is named

A walkthrough of an archive program: its version and help, a new archive, files and
folders put into it, and a file taken out of it again.
-/

import Walkthrough.Script.Basic

namespace Walkthrough
namespace Script

/-- A line that runs the target on the demo archive. -/
def archiveLine (words : String) : String :=
  "\x7btarget\x7d \x7bworkdir\x7d/demo.bunkr " ++ words

/-- A line that runs the target on the demo archive with its password. -/
def openLine (words : String) : String :=
  archiveLine ("-p \x7bworkdir\x7d/.password " ++ words)

/-- A step that shows a line and its output. -/
def shown (line : String) : Step := .run { spec := .line line }

/-- A step that shows a line only. -/
def silent (line : String) : Step := .run { spec := .line line, noOutput := true }

/-- The built-in script. -/
def builtin : Script where
  version := supportedVersion
  steps := [
    .doc ("# Bunkr CLI Usage Examples\nThis document shows the current status of the CLI and "
      ++ "some of the commands you can use.\n"),
    .doc "## 1. Print the version of Bunkr you are running",
    shown "\x7btarget\x7d --version",
    .doc "## 2. Print the help information",
    .run { spec := .line "\x7btarget\x7d --help", allowFail := true },
    .doc "## 3. Create a new archive",
    silent ("echo DemoPassword > \x7bworkdir\x7d/.password "
      ++ "&& chmod 600 \x7bworkdir\x7d/.password"),
    shown (archiveLine "--password-file \x7bworkdir\x7d/.password create"),
    .doc "## 4. Add some content from a file",
    silent "echo 'The quick brown fox jumped over the lazy dog' > \x7bworkdir\x7d/file1.txt",
    shown (openLine "write /file_one \x7bworkdir\x7d/file1.txt -t demo-tag --no-progress"),
    shown (openLine "ls /"),
    .doc "## 5. Check integrity",
    shown (openLine "hash /file_one -a md5 --no-progress"),
    shown "md5sum \x7bworkdir\x7d/file1.txt",
    .doc "## 6. Add some folders and another file",
    silent "head -c 514229 /dev/urandom  > \x7bworkdir\x7d/file2.txt",
    silent (openLine "mkdir /sample/dir -r"),
    shown (openLine "write /sample/dir/file_two \x7bworkdir\x7d/file2.txt --no-progress"),
    .doc "Show everything in the tree so far:",
    shown (openLine "find /"),
    .doc "See how the file reflects the size in bytes",
    shown (openLine "ls /sample/dir/ --machine-readable"),
    shown "ls -al \x7bworkdir\x7d/demo.bunkr",
    .doc ("/dev/urandom didn't compress very well, so the compression offered by Bunkr hasn't "
      ++ "really helped :(.\n"),
    .doc "## 7. Lets try something more compressible",
    shown ("for i in $(seq 1 400); do echo 'Lorem ipsum dolor sit amet' >> "
      ++ "\x7bworkdir\x7d/file3.txt; done; ls -al \x7bworkdir\x7d/file3.txt"),
    silent (openLine "write /file_three \x7bworkdir\x7d/file3.txt"),
    shown (openLine "ls /"),
    shown "ls -al \x7bworkdir\x7d/demo.bunkr",
    .doc ("That compressed much better. The file of 10800 bytes only added 1024 bytes to the "
      ++ "archive size. Files are managed using blocks of 1024 bytes, so that is the minimum "
      ++ "effect on disk size.\n"),
    .doc "Now move it to another location",
    silent (openLine "mv /file_three /sample/file_three"),
    shown (openLine "find / --type file"),
    .doc "And finally extract it and prove that we didnt lose anything",
    silent (openLine "read /sample/file_three \x7bworkdir\x7d/file3-output.txt"),
    shown "md5sum \x7bworkdir\x7d/file3.txt \x7bworkdir\x7d/file3-output.txt"]

end Script
end Walkthrough
