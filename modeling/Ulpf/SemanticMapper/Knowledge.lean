import Ulpf.SemanticMapper.Mapper

/-!
`CanonicalKnowledgeBase`: the canonical fields that the mapper knows. The members of the sets
stand in the order of the source.
-/

namespace Ulpf.SemanticMapper

open Ulpf.Lib

/-- The values of `EventFamily`. -/
def allEventFamilies : List String :=
  ["NETWORK_CONNECTION", "FIREWALL_POLICY", "AUTHENTICATION", "DNS_ACTIVITY", "WEB_SESSION",
   "SECURITY_ALERT", "GENERIC_NETWORK_EVENT"]

def srcIp : CanonicalFieldDefinition where
  path := "src.ip"
  expectedTypes := ["ipv4", "ipv6", "ip"]
  description := "Source IP address of network event"
  isCritical := true
  eventFamilies := ["NETWORK_CONNECTION", "FIREWALL_POLICY", "AUTHENTICATION", "DNS_ACTIVITY",
    "WEB_SESSION", "SECURITY_ALERT", "GENERIC_NETWORK_EVENT"]
  aliases := ["src", "src_ip", "source_ip", "srcip", "source_address", "s_ip", "source",
    "client_ip", "clientip", "c_ip", "src_addr", "sourceaddress", "initiator_ip", "sender_ip",
    "sourceipaddress"]
  suggestedTransform := some "parse_ip"

def dstIp : CanonicalFieldDefinition where
  path := "dst.ip"
  expectedTypes := ["ipv4", "ipv6", "ip"]
  description := "Destination IP address of network event"
  isCritical := true
  eventFamilies := ["NETWORK_CONNECTION", "FIREWALL_POLICY", "AUTHENTICATION", "DNS_ACTIVITY",
    "WEB_SESSION", "SECURITY_ALERT", "GENERIC_NETWORK_EVENT"]
  aliases := ["dst", "dst_ip", "destination_ip", "dest_ip", "destip", "destination_address",
    "d_ip", "destination", "server_ip", "serverip", "dst_addr", "destaddress", "target_ip",
    "responder_ip", "destinationipaddress"]
  suggestedTransform := some "parse_ip"

def srcPort : CanonicalFieldDefinition where
  path := "src.port"
  expectedTypes := ["integer"]
  description := "Source port number"
  isCritical := true
  eventFamilies := ["NETWORK_CONNECTION", "FIREWALL_POLICY", "WEB_SESSION",
    "GENERIC_NETWORK_EVENT"]
  aliases := ["spt", "src_port", "source_port", "srcport", "s_port", "sport", "client_port",
    "sourceport"]
  suggestedTransform := some "to_integer"

def dstPort : CanonicalFieldDefinition where
  path := "dst.port"
  expectedTypes := ["integer"]
  description := "Destination port number"
  isCritical := true
  eventFamilies := ["NETWORK_CONNECTION", "FIREWALL_POLICY", "DNS_ACTIVITY", "WEB_SESSION",
    "GENERIC_NETWORK_EVENT"]
  aliases := ["dpt", "dst_port", "destination_port", "dest_port", "destport", "d_port", "dport",
    "server_port", "destinationport", "service_port"]
  suggestedTransform := some "to_integer"

def eventAction : CanonicalFieldDefinition where
  path := "event.action"
  expectedTypes := ["string"]
  description := "Action taken on the event (e.g. allowed, blocked, denied)"
  isCritical := true
  eventFamilies := ["NETWORK_CONNECTION", "FIREWALL_POLICY", "AUTHENTICATION", "SECURITY_ALERT",
    "GENERIC_NETWORK_EVENT"]
  aliases := ["act", "action", "activity", "decision", "status_action", "disposition",
    "rule_action", "filter_action", "event_action"]
  suggestedTransform := some "trim"

def eventOutcome : CanonicalFieldDefinition where
  path := "event.outcome"
  expectedTypes := ["string", "boolean"]
  description := "Result of event (e.g. success, failure, timeout)"
  isCritical := true
  eventFamilies := ["AUTHENTICATION", "NETWORK_CONNECTION", "FIREWALL_POLICY", "SECURITY_ALERT"]
  aliases := ["outcome", "result", "status", "res", "success", "session_status", "auth_result",
    "login_status", "status_code_name"]
  suggestedTransform := some "trim"

def eventTime : CanonicalFieldDefinition where
  path := "event.time"
  expectedTypes := ["timestamp", "integer", "float"]
  description := "Timestamp when event occurred"
  isCritical := true
  eventFamilies := allEventFamilies
  aliases := ["timestamp", "time", "ts", "event_time", "datetime", "date_time", "occurred_at",
    "received_at", "eventtime", "generation_time", "log_time", "device_time"]
  suggestedTransform := some "parse_timestamp"

def eventClass : CanonicalFieldDefinition where
  path := "event.class"
  expectedTypes := ["string"]
  description := "Event classification taxonomy"
  isCritical := true
  eventFamilies := allEventFamilies
  aliases := ["event_class", "class", "event_type", "type", "category", "cat",
    "device_event_class_id", "event_id", "signature_id"]
  suggestedTransform := some "trim"

def networkProtocol : CanonicalFieldDefinition where
  path := "network.protocol"
  expectedTypes := ["string"]
  description := "Network layer-4/7 protocol (e.g. tcp, udp, icmp)"
  isCritical := false
  eventFamilies := ["NETWORK_CONNECTION", "FIREWALL_POLICY", "GENERIC_NETWORK_EVENT"]
  aliases := ["proto", "protocol", "transport", "network_proto", "app_proto", "ip_protocol",
    "proto_name"]
  suggestedTransform := some "lowercase"

def networkBytesIn : CanonicalFieldDefinition where
  path := "network.bytes_in"
  expectedTypes := ["integer"]
  description := "Bytes received by source or in session"
  isCritical := false
  eventFamilies := ["NETWORK_CONNECTION", "WEB_SESSION", "GENERIC_NETWORK_EVENT"]
  aliases := ["bytes_in", "in_bytes", "bytes_rcvd", "rcvd_bytes", "inbytes", "bytes_received",
    "bytesin", "rcvdbyte", "rx_bytes"]
  suggestedTransform := some "to_integer"

def networkBytesOut : CanonicalFieldDefinition where
  path := "network.bytes_out"
  expectedTypes := ["integer"]
  description := "Bytes transmitted by source or in session"
  isCritical := false
  eventFamilies := ["NETWORK_CONNECTION", "WEB_SESSION", "GENERIC_NETWORK_EVENT"]
  aliases := ["bytes_out", "out_bytes", "bytes_sent", "sent_bytes", "outbytes",
    "bytes_transmitted", "bytesout", "sentbyte", "tx_bytes"]
  suggestedTransform := some "to_integer"

def networkPackets : CanonicalFieldDefinition where
  path := "network.packets"
  expectedTypes := ["integer"]
  description := "Total packets in network exchange"
  isCritical := false
  eventFamilies := ["NETWORK_CONNECTION", "FIREWALL_POLICY", "GENERIC_NETWORK_EVENT"]
  aliases := ["packets", "pkts", "packet_count", "total_packets", "pkt_count"]
  suggestedTransform := some "to_integer"

def userName : CanonicalFieldDefinition where
  path := "user.name"
  expectedTypes := ["string"]
  description := "Username or user identity"
  isCritical := true
  eventFamilies := ["AUTHENTICATION", "WEB_SESSION", "SECURITY_ALERT"]
  aliases := ["user", "username", "user_name", "account", "login", "usr", "actor", "account_name",
    "src_user", "source_username", "duser", "suser"]
  suggestedTransform := some "trim"

def userId : CanonicalFieldDefinition where
  path := "user.id"
  expectedTypes := ["string", "integer"]
  description := "Unique identifier for user account"
  isCritical := true
  eventFamilies := ["AUTHENTICATION", "WEB_SESSION"]
  aliases := ["uid", "user_id", "userid", "account_id", "actor_id"]
  suggestedTransform := some "trim"

def userEmail : CanonicalFieldDefinition where
  path := "user.email"
  expectedTypes := ["email", "string"]
  description := "User email address"
  isCritical := false
  eventFamilies := ["AUTHENTICATION", "WEB_SESSION"]
  aliases := ["email", "user_email", "mail", "user_mail", "sender_email"]
  suggestedTransform := some "lowercase"

def userDomain : CanonicalFieldDefinition where
  path := "user.domain"
  expectedTypes := ["string"]
  description := "User domain or realm"
  isCritical := false
  eventFamilies := ["AUTHENTICATION"]
  aliases := ["domain", "user_domain", "realm", "account_domain", "nt_domain"]
  suggestedTransform := some "trim"

def httpMethod : CanonicalFieldDefinition where
  path := "http.method"
  expectedTypes := ["string"]
  description := "HTTP request verb (e.g. GET, POST)"
  isCritical := false
  eventFamilies := ["WEB_SESSION"]
  aliases := ["method", "http_method", "request_method", "verb"]
  suggestedTransform := some "uppercase"

def httpStatusCode : CanonicalFieldDefinition where
  path := "http.status_code"
  expectedTypes := ["integer"]
  description := "HTTP response status code"
  isCritical := false
  eventFamilies := ["WEB_SESSION"]
  aliases := ["status_code", "http_status", "http_code", "response_code", "resp_code",
    "statuscode"]
  suggestedTransform := some "to_integer"

def httpUrl : CanonicalFieldDefinition where
  path := "http.url"
  expectedTypes := ["url", "string"]
  description := "HTTP target URL or request URI"
  isCritical := false
  eventFamilies := ["WEB_SESSION", "SECURITY_ALERT"]
  aliases := ["url", "request_url", "uri", "request_uri", "path", "http_url"]
  suggestedTransform := some "trim"

def httpUserAgent : CanonicalFieldDefinition where
  path := "http.user_agent"
  expectedTypes := ["string"]
  description := "HTTP Client User-Agent string"
  isCritical := false
  eventFamilies := ["WEB_SESSION"]
  aliases := ["user_agent", "useragent", "agent", "http_user_agent", "cs_user_agent"]
  suggestedTransform := some "trim"

def dnsQueryName : CanonicalFieldDefinition where
  path := "dns.query_name"
  expectedTypes := ["string"]
  description := "DNS queried hostname or domain name"
  isCritical := false
  eventFamilies := ["DNS_ACTIVITY"]
  aliases := ["query", "qname", "query_name", "dns_query", "question"]
  suggestedTransform := some "lowercase"

def dnsQueryType : CanonicalFieldDefinition where
  path := "dns.query_type"
  expectedTypes := ["string", "integer"]
  description := "DNS record query type (e.g. A, AAAA, TXT)"
  isCritical := false
  eventFamilies := ["DNS_ACTIVITY"]
  aliases := ["qtype", "query_type", "record_type", "dns_type"]
  suggestedTransform := some "uppercase"

def dnsResponseCode : CanonicalFieldDefinition where
  path := "dns.response_code"
  expectedTypes := ["string", "integer"]
  description := "DNS response status / rcode (e.g. NOERROR, NXDOMAIN)"
  isCritical := false
  eventFamilies := ["DNS_ACTIVITY"]
  aliases := ["rcode", "response_code", "dns_rcode"]
  suggestedTransform := some "trim"

def deviceHostname : CanonicalFieldDefinition where
  path := "device.hostname"
  expectedTypes := ["string"]
  description := "Device or appliance hostname"
  isCritical := false
  eventFamilies := allEventFamilies
  aliases := ["hostname", "host", "device_name", "device_hostname", "dhost", "shost", "devname",
    "node"]
  suggestedTransform := some "lowercase"

def deviceIp : CanonicalFieldDefinition where
  path := "device.ip"
  expectedTypes := ["ipv4", "ipv6", "ip"]
  description := "Reporting device IP address"
  isCritical := false
  eventFamilies := allEventFamilies
  aliases := ["device_ip", "dev_ip", "dvc_ip", "sensor_ip", "agent_ip", "dvchost"]
  suggestedTransform := some "parse_ip"

/-- `_load_canonical_definitions` -/
def definitions : List CanonicalFieldDefinition :=
  [srcIp, dstIp, srcPort, dstPort, eventAction, eventOutcome, eventTime, eventClass,
   networkProtocol, networkBytesIn, networkBytesOut, networkPackets, userName, userId, userEmail,
   userDomain, httpMethod, httpStatusCode, httpUrl, httpUserAgent, dnsQueryName, dnsQueryType,
   dnsResponseCode, deviceHostname, deviceIp]

end Ulpf.SemanticMapper
