import ChannelAgent.Web.Address

set_option autoImplicit false

namespace ChannelAgent.Web

structure Question where
  address : Address
  userAgent : Option String := none
  project : Option String := none
  /-- The mark that tells the metadata server and the compute service who asks. -/
  flavor : Option String := none
  deriving DecidableEq, Repr

structure Answer where
  status : Nat
  body : List UInt8

/-- How questions fare: the answer to each, or none. -/
abbrev Network := Question → Option Answer

/-- Whether a text may be the value of a header: it holds no control characters but tabs. -/
def isHeaderValue (text : String) : Bool :=
  text.toList.all fun c => c = '\t' || (0x20 ≤ c.toNat && c.toNat ≠ 0x7F)

def reasons : List (Nat × String) :=
  [(400, "Bad Request"), (401, "Unauthorized"), (402, "Payment Required"), (403, "Forbidden"),
    (404, "Not Found"), (405, "Method Not Allowed"), (406, "Not Acceptable"),
    (407, "Proxy Authentication Required"), (408, "Request Timeout"), (409, "Conflict"),
    (410, "Gone"), (411, "Length Required"), (412, "Precondition Failed"),
    (413, "Payload Too Large"), (414, "URI Too Long"), (415, "Unsupported Media Type"),
    (416, "Range Not Satisfiable"), (417, "Expectation Failed"), (418, "I'm a teapot"),
    (421, "Misdirected Request"), (422, "Unprocessable Entity"), (423, "Locked"),
    (424, "Failed Dependency"), (425, "Too Early"), (426, "Upgrade Required"),
    (428, "Precondition Required"), (429, "Too Many Requests"),
    (431, "Request Header Fields Too Large"), (451, "Unavailable For Legal Reasons"),
    (500, "Internal Server Error"), (501, "Not Implemented"), (502, "Bad Gateway"),
    (503, "Service Unavailable"), (504, "Gateway Timeout"), (505, "HTTP Version Not Supported"),
    (506, "Variant Also Negotiates"), (507, "Insufficient Storage"), (508, "Loop Detected"),
    (510, "Not Extended"), (511, "Network Authentication Required")]

def statusText (status : Nat) : String :=
  toString status ++ " " ++
    (((reasons.find? fun r => r.1 = status).map (·.2)).getD "<unknown status code>")

def isFailure (status : Nat) : Bool := 400 ≤ status && status < 600

inductive Fault
  /-- The question cannot be asked. -/
  | unaskable
  /-- No answer came. -/
  | unanswered (address : Address)
  | refused (status : Nat) (address : Address)
  deriving DecidableEq, Repr

def Fault.text : Fault → String
  | .unaskable => "builder error"
  | .unanswered a => "error sending request for url (" ++ a.text ++ ")"
  | .refused status a =>
    (if status < 500 then "HTTP status client error (" else "HTTP status server error (") ++
      statusText status ++ ") for url (" ++ a.text ++ ")"

end ChannelAgent.Web
