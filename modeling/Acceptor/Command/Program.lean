import Acceptor.Command.Arguments
import Acceptor.Command.Response
/-!
The program as a whole: from the words of a command line to what is written and the exit status.
-/
namespace Acceptor.Command

/-- What the program answers to a command line in a world, unless the command line is wrong or asks
for help. -/
def program (arguments : List Text) (world : World) : Except Stop Response :=
  (Invocation.parse arguments).map (·.respond world)

theorem program_of_parsed {arguments : List Text} {invocation : Invocation}
    (parsed : Invocation.parse arguments = .ok invocation) (world : World) :
    program arguments world = .ok (invocation.respond world) := by
  simp [program, parsed, Except.map]

end Acceptor.Command
