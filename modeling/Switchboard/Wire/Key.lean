/-!
# Keys

The numbers under which the parts of headers and bodies stand.
-/

namespace Switchboard.Wire.Key

/-- The code, in a header. -/
def code : UInt64 := 0x00

/-- The sync id, in a header. -/
def sync : UInt64 := 0x01

/-- The schema version, in a header. -/
def schema : UInt64 := 0x05

/-- Positional arguments, in a request body. -/
def tuple : UInt64 := 0x21

/-- The name of a function, in a request body. -/
def function : UInt64 := 0x22

/-- The name of a user, in a request body. -/
def user : UInt64 := 0x23

/-- An expression, in a request body. -/
def expression : UInt64 := 0x27

/-- The result, in a response body. -/
def data : UInt64 := 0x30

/-- The text of an error, in a response body. -/
def error : UInt64 := 0x31

end Switchboard.Wire.Key
