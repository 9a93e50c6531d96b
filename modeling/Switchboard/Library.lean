import Switchboard.Jms
import Switchboard.Library.Messages
import Switchboard.Library.Numbers
import Switchboard.Library.Strings

/-!
The contributions that every engine has: the functions of messages, of floats and of strings, and
the action that sends a message.
-/

namespace Switchboard.Library

/-- The functions, in the order of registration. -/
def functions : List Contribution :=
  Messages.contributions ++ Numbers.contributions ++ Strings.contributions

/-- The functions, then the action. -/
def contributions : List Contribution :=
  functions ++ [.action Jms.send]

end Switchboard.Library
