import SicXe.Text.Basic

/-!
# Plain requests

Besides the messages, the service answers plain requests with a page on which a source can be typed
and assembled.
-/

namespace SicXe.Service

/-- The lines of the page. -/
def pageLines : List String :=
  ["<html>",
   "<head>",
   "\t<title>SIC Assembler</title>",
   "</head>",
   "<body style=\"background-color: #1E1E1E; color: white; font-family: monospace;\">",
   "\t<h1 style=\"display: inline-block;\">SIC Assembler</h1>",
   "\t<select id=\"mode\"><option value=\"xe\">SIC/XE</option><option value=\"sic\">SIC</option></select>",
   "\t<button id=\"assembleButton\">ASSEMBLE</button>",
   "\t<br/>",
   "\t<textarea id=\"source\" rows=\"20\" cols=\"100\"></textarea>",
   "\t<pre id=\"output\" style=\"background-color: black; padding: 10px;\"></pre>",
   "",
   "\t<script>",
   "\t\tvar socket = new WebSocket(\"ws://\" + location.host + \"/ws\");",
   "",
   "\t\tsocket.onmessage = function(event) \x7b",
   "\t\t\tvar data = JSON.parse(event.data);",
   "\t\t\tvar output = document.getElementById(\"output\");",
   "",
   "\t\t\tif (data.type == \"result\") \x7b",
   "\t\t\t\toutput.textContent = data.listing + \"\\n\" + (data.objectListing || \"\") + \"\\n\" + (data.objectProgram || \"\");",
   "\t\t\t\x7d else \x7b",
   "\t\t\t\toutput.textContent = data.text;",
   "\t\t\t\x7d",
   "\t\t\x7d;",
   "",
   "\t\tdocument.getElementById(\"assembleButton\").onclick = function() \x7b",
   "\t\t\tsocket.send(JSON.stringify(\x7b",
   "\t\t\t\ttype: \"assemble\",",
   "\t\t\t\tmode: document.getElementById(\"mode\").value,",
   "\t\t\t\tsource: document.getElementById(\"source\").value,",
   "\t\t\t\x7d));",
   "\t\t\x7d;",
   "\t</script>",
   "</body>",
   "</html>"]

/-- The page. -/
def page : Text := pageLines.flatMap fun line => Text.ofString line ++ [Text.lineFeed]

/-- The answer to a plain request. -/
structure PlainAnswer where
  status : Nat
  contentType : Text
  body : Text
  log : Option Text := none

/-- The path of a request without its query. -/
def pathOf (target : Text) : Text := target.takeWhile (· != 0x3F)

/-- Answers a plain request. Messages need a connection of their own, so a plain request for one is
refused. -/
def plainAnswer (target : Text) : PlainAnswer :=
  if pathOf target = "/" then { status := 200, contentType := "text/html", body := page }
  else if pathOf target = "/ws" then
    { status := 400
      contentType := "text/plain; charset=utf-8"
      body := "Bad Request\n"
      log := some ("upgrade: websocket: the client is not using the websocket protocol: " ++
        "'upgrade' token not found in 'Connection' header" : String) }
  else
    { status := 404
      contentType := "text/plain; charset=utf-8"
      body := "404 page not found\n" }

end SicXe.Service
