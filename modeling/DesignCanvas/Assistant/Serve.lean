import DesignCanvas.Assistant.Handle
import DesignCanvas.Json.Printer
import DesignCanvas.Json.Reader
import DesignCanvas.Text.Blank
import DesignCanvas.Text.Search

/-!
# Serving requests

Requests come as lines of text with a JSON value on each, and so do the responses to them. A blank line is passed over;
a line that is no request is answered with an error and changes nothing. The reason that the error gives is the
complaint of the reader of the line.
-/

namespace DesignCanvas

/-- The request in a line, if there is one. -/
def Request.ofLine? (line : String) : Option Request :=
  (Json.parse? line).bind ofJson?

/-- The response to a line that is no request. -/
def Response.invalid (reason : String) : Response :=
  .error "invalid-request" ("요청을 해석할 수 없습니다: " ++ reason)

/-- The line that a response is written as. -/
def Response.line (r : Response) : String :=
  r.toJson.compact ++ "\n"

/-- The settings after a reply, for which the source of pictures was asked a number of times. -/
def Settings.after (s : Settings) (reply : Reply) : Settings :=
  { s with source := s.source.drop reply.trace.urls.length }

namespace Assistant

def answer (s : Settings) (a : Assistant) (line : String) : Assistant × Reply :=
  match Request.ofLine? line with
  | some r => a.handle s r
  | none => (a, ⟨.invalid (s.complaint line), .empty⟩)

/-- Answers lines one after another. -/
def answerAll (s : Settings) (a : Assistant) : List String → Assistant × List Reply
  | [] => (a, [])
  | line :: lines =>
    let (a, reply) := a.answer s line
    let (a, replies) := a.answerAll (s.after reply) lines
    (a, reply :: replies)

/-- The lines of a text that are not blank. -/
def requestLines (text : String) : List String :=
  ((Text.lines text.toList).filter fun line => !Text.allBlank line).map String.ofList

/-- Answers all lines of a text. -/
def serve (s : Settings) (a : Assistant) (text : String) : Assistant × List Reply :=
  a.answerAll s (requestLines text)

end Assistant

end DesignCanvas
