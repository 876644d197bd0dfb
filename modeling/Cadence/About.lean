namespace Cadence.About

def version : String := "0.1.0"

def identifier : String := "process-scheduler"

def name : String := "pdjr-skplugin-process-scheduler"

def summary : String := "Simple process scheduling"

end Cadence.About
