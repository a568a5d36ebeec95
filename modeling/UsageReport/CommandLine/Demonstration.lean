/-
The small client whose report the command line prints: a file manager that counts its files
and names them on request, a user manager that knows no details, and a connection manager that
has nothing to tell.
-/
import UsageReport.Client

namespace UsageReport.CommandLine

/-- A file manager with two files. -/
def fileManager : Provider :=
  { identity := 0
    signature := .takesFull
    behave := fun call =>
      let names : List String := ["photo.jpg", "voice.ogg"]
      let count : Value × Value := (.text "file_count", .int names.length)
      let detail : Value × Value := (.text "file_names", .list (names.map .text))
      let wanted := (call.full.getD .null).truth
      match fragmentOfPairs (count :: if wanted then [detail] else []) with
      | .ok text => ⟨[.text text], none⟩
      | .error failure => ⟨[], some (.failed failure)⟩ }

/-- A user manager with three users. -/
def userManager : Provider :=
  { identity := 1
    signature := .plain
    behave := fun _ =>
      match fragment [("users", .int 3), ("users_full", .int 0)] with
      | .ok text => ⟨[.text text], none⟩
      | .error failure => ⟨[], some (.failed failure)⟩ }

/-- A connection manager, which has nothing cached. -/
def connectionManager : Provider :=
  { identity := 2, signature := .takesFull, behave := fun _ => ⟨[], none⟩ }

/-- The subsystems in the order in which they are registered. -/
def subsystems : List (String × Provider) :=
  [("user_manager_", userManager), ("connection_state_manager_", connectionManager),
    ("file_manager_", fileManager)]

/-- Registers all subsystems. -/
def equip (c : Client) : Outcome Client :=
  subsystems.foldlM (fun c s => c.register (.text s.1) s.2) c

end UsageReport.CommandLine
