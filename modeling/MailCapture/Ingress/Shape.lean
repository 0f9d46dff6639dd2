import MailCapture.Shape
/-!
The shapes of an ingress: rules and backends in its spec, addresses in its status.
-/
namespace MailCapture.Shape

def servicePort : Shape := .record [] (int32.each ["number"] ++ text.each ["name"])

def backend : Shape := .record [] [
  ("resource", typedReference []),
  ("service", .record (text.each ["name"]) [("port", servicePort)])]

def pathRule : Shape :=
  .record (text.each ["pathType"] ++ [("backend", backend)]) (text.each ["path"])

def hostRule : Shape := .record []
  (text.each ["host"] ++ [("http", .record [("paths", .list pathRule)] [])])

def ingressSpec : Shape := .record []
  (text.each ["ingressClassName"] ++
    [("defaultBackend", backend), ("rules", .list hostRule),
      ("tls", .list (.record [] (texts.each ["hosts"] ++ text.each ["secretName"])))])

def balancerPort : Shape :=
  .record (text.each ["protocol"] ++ int32.each ["port"]) (text.each ["error"])

def balancer : Shape := .record []
  (text.each ["hostname", "ip"] ++ [("ports", .list balancerPort)])

def ingressStatus : Shape := .record []
  [("loadBalancer", .record [] [("ingress", .list balancer)])]

end MailCapture.Shape
